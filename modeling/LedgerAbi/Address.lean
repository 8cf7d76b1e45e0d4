/-
Addresses: twenty bytes, given raw or as forty hexadecimal digits.

* `Address.ofValue` reads either form and rejects everything else;
* `Address.hex` is the ledger's form of an address.
-/
import LedgerAbi.Error
import LedgerAbi.Hex

namespace LedgerAbi

/-- The address of an account or a contract. -/
structure Address where
  bytes : Bytes
  length_eq : bytes.length = 20
deriving DecidableEq

namespace Address

/-- The address of nobody. -/
def zero : Address := ⟨List.replicate 20 0, rfl⟩

/-- The address as forty capital digits. -/
def hex (a : Address) : Text := Hex.ofBytes a.bytes

/-- The address that some digits spell, with or without a mark. -/
def ofText? (t : Text) : Option Address :=
  if Hex.isAddress t then
    match Hex.read? t with
    | some bytes => if h : bytes.length = 20 then some ⟨bytes, h⟩ else none
    | none => none
  else none

/-- The failure for a value that is no address. -/
def rejected (v : Value) : Error :=
  if v.isOverlong then .fault .overlongInteger else .encode (.invalidAddress v)

/-- Reads an address. -/
def ofValue (v : Value) : Except Error Address :=
  match v with
  | .bytes b => if h : b.length = 20 then .ok ⟨b, h⟩ else .error (.encode (.addressLength b.length))
  | .text t => match ofText? t with
    | some a => .ok a
    | none => .error (rejected v)
  | _ => .error (rejected v)

end Address

/-- The bytes of a value that is raw bytes or a hexadecimal text. -/
def Value.hexBytes (v : Value) : Except Error Bytes :=
  match v with
  | .bytes b => .ok b
  | .text t => match Hex.read? t with
    | some b => .ok b
    | .none => .error (.fault .badHex)
  | _ => .error (.fault .wrongKind)

/-- The ledger's hexadecimal form of raw bytes or of a text, which need not be hexadecimal. -/
def Value.wireHex (v : Value) : Except Error Text :=
  match v with
  | .bytes b => .ok (Hex.ofBytes b)
  | .text t => .ok (Hex.normalize t)
  | _ => .error (.fault .wrongKind)

end LedgerAbi
