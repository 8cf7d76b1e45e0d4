/-
Conversions between texts of users and texts of the wire, on values as callers give them.

A value of a kind that a conversion does not take is a fault.
-/
import LedgerAbi.Address
import LedgerAbi.Text.Wrap
import LedgerAbi.Value.Parts

namespace LedgerAbi.WireText

/-- A hexadecimal text without its mark. -/
def stripMark (v : Value) : Except Error Text :=
  match v with
  | .text t => .ok (Hex.stripMark t)
  | _ => .error (.fault .wrongKind)

/-- The ledger's form of bytes or of a hexadecimal text, with a mark. -/
def prefixed (v : Value) : Except Error Text := v.wireHex.map Hex.withMark

/-- The ledger's form of an address. -/
def address (v : Value) : Except Error Text := (Address.ofValue v).map Address.hex

/-- The ASCII text of some bytes, without the zeros at its end. -/
def asciiText (v : Value) : Except Error Text := do
  let bytes ← v.hexBytes
  match Text.ofAscii? bytes with
  | some t => .ok (t.reverse.dropWhile fun c => c.toNat == 0).reverse
  | none => .error (.fault .notAscii)

/-- The bytes of an ASCII text as capital digits. -/
def asciiHex (v : Value) : Except Error Text :=
  match v with
  | .text t => match Text.toAscii? t with
    | some bytes => .ok (Hex.ofBytes bytes)
    | none => .error (.fault .unencodable)
  | _ => .error (.fault .noMembers)

/-- The length that a value is. -/
def length (v : Value) : Except Error Int :=
  match v with
  | .int i => if i.natAbs < 2 ^ 63 ∨ i = -2 ^ 63 then .ok i else .error (.fault .lengthOverflow)
  | .bool b => .ok (if b then 1 else 0)
  | _ => .error (.fault .wrongKind)

/-- The end at which a text or bytes are filled up. -/
inductive Side where
  | left
  | right
deriving DecidableEq, Inhabited

/-- How many items a memory can be expected to hold. -/
def memoryLimit : Nat := 2 ^ 40

/-- Items filled up to a length; longer ones stay as they are. -/
def fill {α : Type} (side : Side) (items : List α) (size : Int) (filler : α) : Except Error (List α) :=
  if items.length < size ∧ memoryLimit < size then .error (.fault .outOfMemory)
  else .ok (match side with
    | .left => items.leftpad size.toNat filler
    | .right => items.rightpad size.toNat filler)

/-- A text or bytes filled up with a single code point or byte. -/
def pad (side : Side) (v size filler : Value) : Except Error Value :=
  match v with
  | .text t => do
    let size ← length size
    match filler with
    | .text [c] => .ok (.text (← fill side t size c))
    | _ => .error (.fault .wrongKind)
  | .bytes b => do
    let size ← length size
    match filler with
    | .bytes [c] =>
      if 2 ^ 63 - 33 ≤ size then .error (.fault .lengthOverflow)
      else .ok (.bytes (← fill side b size c))
    | _ => .error (.fault .wrongKind)
  | _ => .error (.fault .noMembers)

/-- A value that has parts as an item of a list: it counts with the number of its parts. -/
def item (v : Value) : Except Error Text.Item := do
  let parts ← v.items
  if v.isOverlong then .error (.fault .overlongInteger) else .ok ⟨parts.length, v.plain⟩

/-- The parts of a value laid out in lines. The width may be any number. -/
def wrap (list width : Value) : Except Error (List Text) := do
  match ← list.items with
  | [] => .ok [[]]
  | items => match width.numeric? with
    | none => .error (.fault .wrongKind)
    | some width => .ok (Text.wrapItems (fun n => width.less (.int n)) (← items.mapM item))

end LedgerAbi.WireText
