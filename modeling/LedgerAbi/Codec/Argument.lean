/-
Reading the spellings of argument values.

Callers may give integers, booleans, addresses and bytes as texts. Before a value is compared with its
type, each scalar inside it is brought into the form of the scalar type at the bottom of the declared
type: integers become integers, addresses and bytes become raw bytes, the words for truth become
booleans. How lists are nested plays no part here.

* `Argument.scalar` reads one scalar for a scalar type;
* `Argument.read` reads a value of any nesting, `Argument.readAll` a list of values for their types.
-/
import LedgerAbi.Address

namespace LedgerAbi.Argument

/-- A failure that quotes a value; one that cannot be written out cannot be quoted either. -/
def quoting (v : Value) (cause : EncodeFailure) : Error :=
  if v.isOverlong then .fault .overlongInteger else .encode cause

/-- Raw bytes, or bytes spelled as hexadecimal text. -/
def rawBytes (v : Value) : Except Error Value :=
  match v with
  | .bytes b => .ok (.bytes b)
  | .text t => match Hex.read? t with
    | some b => .ok (.bytes b)
    | none => .error (.encode (.notHex t))
  | _ => .error (quoting v (.notBytes v))

/-- An integer, or one spelled as text. A boolean is no integer. -/
def integer (v : Value) : Except Error Value :=
  match v with
  | .bool b => .error (.encode (.booleanInteger b))
  | .int i => .ok (.int i)
  | .text t => match t.integer? with
    | some i => .ok (.int i)
    | none => .error (.encode (.unreadableInteger t))
  | _ => .error (quoting v (.notInteger v))

/-- The words for truth in any letter case become booleans; all else stays. -/
def boolean (v : Value) : Value :=
  match v with
  | .text t =>
    if t.toAsciiLower = "true" then .bool true
    else if t.toAsciiLower = "false" then .bool false
    else v
  | _ => v

/-- A scalar brought into the form of a scalar type. -/
def scalar (leaf : AbiType) (v : Value) : Except Error Value :=
  match leaf with
  | .address => do
    let a ← Address.ofValue v
    .ok (.bytes a.bytes)
  | .bytes => rawBytes v
  | .fixedBytes _ => rawBytes v
  | .uint _ => integer v
  | .int _ => integer v
  | .bool => .ok (boolean v)
  | _ => .ok v

mutual

/-- All scalars of a value, from left to right, brought into the form of a scalar type. -/
def read (leaf : AbiType) : Value → Except Error Value
  | .list items => do
    let items ← readItems leaf items
    .ok (.list items)
  | v => scalar leaf v

def readItems (leaf : AbiType) : List Value → Except Error (List Value)
  | [] => .ok []
  | v :: rest => do
    let v ← read leaf v
    let rest ← readItems leaf rest
    .ok (v :: rest)

end

/-- Values read for their types, from left to right. -/
def readAll : List AbiType → List Value → Except Error (List Value)
  | t :: types, v :: values => do
    let v ← read t.leaf v
    let rest ← readAll types values
    .ok (v :: rest)
  | _, _ => .ok []

end LedgerAbi.Argument
