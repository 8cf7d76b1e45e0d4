/-
The types of contract parameters.

A type is a scalar or an array. Widths and array lengths carry their bounds, so that every value of
`AbiType` is a type that contracts can declare.

* `AbiType.canonical` is the name used in signatures;
* `AbiType.isDynamic` tells whether the encoded size depends on the value;
* `AbiType.isHashed` tells whether an indexed event parameter is kept as a digest only.
-/
import LedgerAbi.Text.Basic

namespace LedgerAbi

/-- The number of bytes of an integer or of fixed bytes. -/
structure Width where
  bytes : Nat
  pos : 0 < bytes
  le : bytes ≤ 32
deriving DecidableEq

namespace Width

/-- The width of a byte. -/
def byte : Width := ⟨1, by decide, by decide⟩

/-- The width of a word. -/
def word : Width := ⟨32, by decide, by decide⟩

def bits (w : Width) : Nat := 8 * w.bytes

def ofBytes? (n : Nat) : Option Width := if h : 0 < n ∧ n ≤ 32 then some ⟨n, h.1, h.2⟩ else none

def ofBits? (n : Nat) : Option Width := if n % 8 = 0 then ofBytes? (n / 8) else none

end Width

/-- The number of items of a fixed array. -/
structure Length where
  items : Nat
  pos : 0 < items
deriving DecidableEq

/-- The type of a contract parameter. -/
inductive AbiType where
  | address
  | bool
  | string
  | bytes
  | fixedBytes (width : Width)
  | uint (width : Width)
  | int (width : Width)
  | array (element : AbiType)
  | fixedArray (element : AbiType) (length : Length)
deriving DecidableEq

namespace AbiType

/-- Fixed bytes of 32, the size of a log topic. -/
def bytes32 : AbiType := fixedBytes ⟨32, by decide, by decide⟩

/-- The name of the type in signatures. -/
def canonical : AbiType → Text
  | address => "address"
  | bool => "bool"
  | string => "string"
  | bytes => "bytes"
  | fixedBytes w => "bytes" ++ Text.ofNat w.bytes
  | uint w => "uint" ++ Text.ofNat w.bits
  | int w => "int" ++ Text.ofNat w.bits
  | array e => canonical e ++ "[]"
  | fixedArray e n => canonical e ++ "[" ++ Text.ofNat n.items ++ "]"

/-- True if the encoded size depends on the value. -/
def isDynamic : AbiType → Bool
  | string => true
  | bytes => true
  | array _ => true
  | fixedArray e _ => isDynamic e
  | _ => false

/-- True if an indexed event parameter of the type is kept in its topic as a digest. -/
def isHashed : AbiType → Bool
  | string => true
  | bytes => true
  | array _ => true
  | fixedArray _ _ => true
  | _ => false

/-- The scalar type below all array dimensions. -/
def leaf : AbiType → AbiType
  | array e => leaf e
  | fixedArray e _ => leaf e
  | t => t

/-- How many words of 32 bytes a value of a static type takes, and 1 for the pointer to a value of a
dynamic type. -/
def headWords : AbiType → Nat
  | fixedArray e n => if isDynamic e then 1 else n.items * headWords e
  | _ => 1

end AbiType

end LedgerAbi
