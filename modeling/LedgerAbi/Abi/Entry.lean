/-
Functions, constructors and events of a contract, as its ABI declares them.

Decoded event arguments and named results are kept under the names of their parameters, an unnamed
parameter under its position. An `Entry` therefore carries the fact that these keys differ, and
reading an entry rejects overlapping names.

* `Entry.ofValue` reads one entry of an ABI document, `Entry.listOfValue` the whole document;
* `parameterKeys` are the keys of a list of parameters.
-/
import LedgerAbi.Abi.TypeText
import LedgerAbi.Value.Keys
import LedgerAbi.Value.Parts

namespace LedgerAbi

/-- An input or output of a function, or an input of an event. -/
structure Parameter where
  name : Value
  type : AbiType
  indexed : Bool

namespace Parameter

/-- Reads a parameter. A missing or empty name is the empty text. -/
def ofValue (v : Value) : Except Error Parameter := do
  let members ← v.members
  let name := ((members.get? "name").bind Value.truthy?).getD (.text [])
  let type ← AbiType.ofValue (members.getD "type" (.text []))
  .ok ⟨name, type, (members.getD "indexed" (.bool false)).isTruthy⟩

/-- The key of a parameter at a position. -/
def key (p : Parameter) (position : Nat) : Value :=
  if p.name.isTruthy then p.name else .text (Text.ofNat position)

/-- The keys of parameters from a position on. -/
def keysFrom : Nat → List Parameter → List Value
  | _, [] => []
  | position, p :: rest => p.key position :: keysFrom (position + 1) rest

end Parameter

/-- The keys that decoded values of the parameters are kept under. -/
def parameterKeys (ps : List Parameter) : List Value := Parameter.keysFrom 0 ps

/-- No two keys are the same. -/
def DistinctKeys (keys : List Value) : Prop := keys.Pairwise fun a b => a.same b = false

instance (keys : List Value) : Decidable (DistinctKeys keys) :=
  inferInstanceAs (Decidable (List.Pairwise _ _))

/-- What a function may do to the state of the ledger. -/
inductive Mutability where
  | pure
  | view
  | nonpayable
  | payable
deriving DecidableEq, Inhabited

namespace Mutability

def name : Mutability → Text
  | pure => "pure"
  | view => "view"
  | nonpayable => "nonpayable"
  | payable => "payable"

/-- True if a function does not modify the state of the ledger. -/
def isReadOnly : Mutability → Bool
  | pure => true
  | view => true
  | _ => false

def ofName? (t : Text) : Option Mutability :=
  [pure, view, nonpayable, payable].find? fun m => m.name == t

/-- Reads the mutability of an entry. Documents of older compilers have the flags `constant` and
`payable` in its place. -/
def ofMembers (members : Members) : Except Error Mutability :=
  match members.get? "stateMutability" with
  | some (.text t) => match ofName? t with
    | some m => .ok m
    | none => .error (.fault .unknownMutability)
  | some _ => .error (.fault .unknownMutability)
  | none =>
    if (members.getD "constant" .none).isTruthy then .ok view
    else if (members.getD "payable" .none).isTruthy then .ok payable
    else .ok nonpayable

end Mutability

namespace EntryKind

/-- The kind that a value names. -/
def ofValue? : Value → Option EntryKind
  | .text t => [function, constructor, event].find? fun k => k.name == t
  | _ => none

/-- The parameters of an entry whose decoded values are kept under keys: the inputs of an event, the
outputs of anything else. -/
def keyed : EntryKind → List Parameter → List Parameter → List Parameter
  | event, inputs, _ => inputs
  | _, _, outputs => outputs

end EntryKind

/-- A function, constructor or event of an ABI. -/
structure Entry where
  kind : EntryKind
  name : Value
  inputs : List Parameter
  outputs : List Parameter
  mutability : Mutability
  anonymous : Bool
  distinctKeys : DistinctKeys (parameterKeys (kind.keyed inputs outputs))

namespace Entry

def isConstructor (e : Entry) : Bool := e.kind == .constructor

def isReadOnly (e : Entry) : Bool := e.mutability.isReadOnly

def inputTypes (e : Entry) : List AbiType := e.inputs.map Parameter.type

def outputTypes (e : Entry) : List AbiType := e.outputs.map Parameter.type

/-- The keys of the decoded values of an entry. -/
def keys (e : Entry) : List Value := parameterKeys (e.kind.keyed e.inputs e.outputs)

/-- The failure for keys that are not distinct. Keys that cannot be sorted cannot be listed either, and
neither can keys or a name that cannot be written out. -/
def overlap (kind : EntryKind) (name : Value) (keys : List Value) : Error :=
  let repeated := Value.repeated keys
  if !repeated.all Value.isKey then .fault .wrongKind
  else match Value.sortKeys? repeated with
    | some sorted =>
      if name.isOverlong || sorted.any Value.isOverlong then .fault .overlongInteger
      else .invalidType (.overlappingNames kind name sorted)
    | none => .fault .wrongKind

/-- The kind that the members of an entry name; an entry without a kind is a function. -/
def kindValue (members : Members) : Value :=
  members.getD "type" (.text "function")

/-- Reads an entry of an ABI document. -/
def ofValue (v : Value) : Except Error Entry := do
  let members ← v.members
  match EntryKind.ofValue? (kindValue members) with
  | none => .error (.invalidType (.entryKind (kindValue members)))
  | some kind =>
    let name := members.getD "name" (.text [])
    let inputs ← (← (members.getD "inputs" (.list [])).items).mapM Parameter.ofValue
    let outputs ← (← (members.getD "outputs" (.list [])).items).mapM Parameter.ofValue
    let mutability ← Mutability.ofMembers members
    let anonymous := (members.getD "anonymous" .none).isTruthy
    if h : DistinctKeys (parameterKeys (kind.keyed inputs outputs)) then
      .ok ⟨kind, name, inputs, outputs, mutability, anonymous, h⟩
    else .error (overlap kind name (parameterKeys (kind.keyed inputs outputs)))

/-- Reads the entries of a document that bind; entries of other kinds are passed over. -/
def ofValues : List Value → Except Error (List Entry)
  | [] => .ok []
  | v :: rest => do
    let members ← v.members
    match EntryKind.ofValue? (kindValue members) with
    | none => ofValues rest
    | some _ =>
      let e ← ofValue v
      let es ← ofValues rest
      .ok (e :: es)

/-- Reads an ABI document. -/
def listOfValue (v : Value) : Except Error (List Entry) := do ofValues (← v.items)

end Entry

end LedgerAbi
