/-
What comes back from the ledger, and what callers see of it.

* `RawResult` is the answer to a request as bytes;
* `decodeRevertReason` reads why a call was reverted;
* `unpackOutput` reads the outputs of a function.
-/
import LedgerAbi.Abi.Entry
import LedgerAbi.Codec.Decode

namespace LedgerAbi

/-- An exception that the ledger reports for a call. -/
structure LedgerException where
  code : Int
  message : Value

/-- The answer to a call. -/
structure RawResult where
  returnData : Bytes
  contractAddress : Option Bytes
  exception : Option LedgerException

/-- The code of the exception that stands for a reverted call. -/
def revertCode : Int := 16

namespace RawResult

/-- The answer that holds nothing. -/
def empty : RawResult := ⟨[], none, none⟩

def isReverted (r : RawResult) : Bool :=
  match r.exception with
  | some e => e.code == revertCode
  | none => false

end RawResult

/-- What a call resolves to: a value, or named values beside the list of all of them. -/
inductive CallResult where
  | value (v : Value)
  | object (values : List (Value × Value)) (raw : List Value)

/-- The value under a key, with keys compared as values are. -/
def findKey (key : Value) : List (Value × Value) → Option Value
  | [] => none
  | (k, v) :: rest => if k.same key then some v else findKey key rest

/-- A value put under a key: in the place of the entry with that key, or at the end. -/
def putKey (key v : Value) : List (Value × Value) → List (Value × Value)
  | [] => [(key, v)]
  | (k, w) :: rest => if k.same key then (k, v) :: rest else (k, w) :: putKey key v rest

/-- Values under their keys, in order; a repeated key keeps its first place and its last value. -/
def collect (named : List (Value × Value)) : List (Value × Value) :=
  named.foldl (fun found (key, v) => putKey key v found) []

/-- The reason of a reverted call: the string after the four bytes that name the error. Returned data
that is no longer than those has no reason. -/
def decodeRevertReason (returnData : Bytes) : Except Error Text :=
  if returnData.length ≤ 4 then .ok []
  else
    let data := returnData.drop 4
    match Data.decode [.string] data with
    | .ok (reason, _) => .ok reason
    | .error cause => .error (.decode (.corrupt data.length [.string] cause))

/-- The outputs of a function in returned data, which is raw bytes or a hexadecimal text: nothing
without declared outputs, the bare value of a single one, and otherwise the list of values, or an object
with their names if one is asked for. -/
def unpackOutput (entry : Entry) (returnData : Value) (objectReturn : Bool) :
    Except Error CallResult := do
  if entry.outputs.isEmpty then .ok (.value .none)
  else
    let raw ← decodeValues entry.outputTypes returnData
    match raw with
    | [v] => .ok (.value v)
    | _ =>
      if !objectReturn then .ok (.value (.list raw))
      else if (parameterKeys entry.outputs).all Value.isKey then
        .ok (.object (collect ((parameterKeys entry.outputs).zip raw)) raw)
      else .error (.fault .wrongKind)

namespace CallResult

/-- The item of a sequence at an index, which counts from the end if it is negative. -/
def itemAt {α : Type} (items : List α) (index : Int) : Except Error α :=
  let place := if index < 0 then index + items.length else index
  if place < 0 then .error (.fault .missingIndex)
  else match items[place.toNat]? with
    | some item => .ok item
    | none => .error (.fault .missingIndex)

/-- The index that a value is, with truth values as 0 and 1. -/
def index? : Value → Option Int
  | .int i => some i
  | .bool b => some (if b then 1 else 0)
  | _ => none

/-- The part of a result under a key. -/
def item (r : CallResult) (key : Value) : Except Error Value :=
  match r with
  | object values _ =>
    if !key.isKey then .error (.fault .wrongKind)
    else match findKey key values with
      | some v => .ok v
      | none => .error (.fault .missingKey)
  | value (.list items) => match index? key with
    | some i => itemAt items i
    | none => .error (.fault .wrongKind)
  | value (.text t) => match index? key with
    | some i => (itemAt t i).map fun c => .text [c]
    | none => .error (.fault .wrongKind)
  | value _ => .error (.fault .wrongKind)

end CallResult

end LedgerAbi
