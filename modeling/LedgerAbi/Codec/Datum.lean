/-
The values of a type.

`t.Datum` is the Lean type of the values of the ABI type `t`: bounds and lengths are part of it, so
that encoding cannot fail and decoding cannot return anything ill typed.

* `AbiType.fit` compares a value with a type and gives the datum that it is;
* `AbiType.toValue` gives the value that callers see;
* `Data types` are data for a list of types.
-/
import LedgerAbi.Address

namespace LedgerAbi

namespace AbiType

/-- The values of a type. -/
def Datum : AbiType → Type
  | address => Address
  | bool => Bool
  | string => Text
  | bytes => Bytes
  | fixedBytes w => { b : Bytes // b.length = w.bytes }
  | uint w => { n : Nat // n < 2 ^ w.bits }
  | int w => { i : Int // -(2 ^ (w.bits - 1) : Int) ≤ i ∧ i < (2 ^ (w.bits - 1) : Int) }
  | array e => List (Datum e)
  | fixedArray e n => { items : List (Datum e) // items.length = n.items }

end AbiType

namespace Bytes

theorem length_padEnd {b : Bytes} {n : Nat} (h : b.length ≤ n) : (padEnd b n).length = n := by
  simp only [padEnd, List.length_append, List.length_replicate]
  omega

end Bytes

namespace AbiType

/-- The datum of a type that a value is. -/
def fit : (t : AbiType) → Value → Except Misfit t.Datum
  | address, .bytes b => if h : b.length = 20 then .ok ⟨b, h⟩ else .error .wrongKind
  | bool, .bool b => .ok b
  | string, .text t => .ok t
  | bytes, .bytes b => .ok b
  | fixedBytes w, .bytes b =>
    if h : b.length ≤ w.bytes then .ok ⟨Bytes.padEnd b w.bytes, Bytes.length_padEnd h⟩
    else .error .outOfBounds
  | uint w, .int i =>
    if h : 0 ≤ i ∧ i.toNat < 2 ^ w.bits then .ok ⟨i.toNat, h.2⟩ else .error .outOfBounds
  | int w, .int i =>
    if h : -(2 ^ (w.bits - 1) : Int) ≤ i ∧ i < (2 ^ (w.bits - 1) : Int) then .ok ⟨i, h⟩
    else .error .outOfBounds
  | array e, .list vs => vs.mapM (fit e)
  | fixedArray e n, .list vs => do
    let items ← vs.mapM (fit e)
    if h : items.length = n.items then .ok ⟨items, h⟩ else .error .outOfBounds
  | _, _ => .error .wrongKind

/-- A datum as callers see it: addresses and bytes as capital hexadecimal digits. -/
def toValue : (t : AbiType) → t.Datum → Value
  | address, a => .text (Address.hex a)
  | bool, b => .bool b
  | string, t => .text t
  | bytes, b => .text (Hex.ofBytes b)
  | fixedBytes _, b => .text (Hex.ofBytes b.val)
  | uint _, n => .int (Int.ofNat n.val)
  | int _, i => .int i.val
  | array e, items => .list (List.map (toValue e) items)
  | fixedArray e _, items => .list (List.map (toValue e) items.val)

/-- True if no string inside the datum holds a lone surrogate. -/
def isScalarText : (t : AbiType) → t.Datum → Bool
  | string, t => Text.isScalar t
  | array e, items => List.all items (isScalarText e)
  | fixedArray e _, items => items.val.all (isScalarText e)
  | _, _ => true

end AbiType

/-- The next multiple of 32, the size of a word. -/
def ceil32 (n : Nat) : Nat := (n + 31) / 32 * 32

/-- Data for a list of types. -/
def Data : List AbiType → Type
  | [] => Unit
  | t :: types => t.Datum × Data types

namespace Data

/-- The data that some values are, from left to right. -/
def fit : (types : List AbiType) → List Value → Except Misfit (Data types)
  | [], _ => .ok ()
  | _ :: _, [] => .error .wrongKind
  | t :: types, v :: values => do
    let d ← t.fit v
    let rest ← fit types values
    .ok (d, rest)

def toValues : (types : List AbiType) → Data types → List Value
  | [], _ => []
  | t :: types, (d, rest) => t.toValue d :: toValues types rest

def isScalarText : (types : List AbiType) → Data types → Bool
  | [], _ => true
  | t :: types, (d, rest) => t.isScalarText d && isScalarText types rest

end Data

end LedgerAbi
