/-
The wire form of values.

A sequence of values is a head followed by a tail. In the head a value of a static type stands itself
and a value of a dynamic type is a pointer, the distance from the start of the head to the place in
the tail where the value stands.

* `layout` puts encoded parts into a head and a tail;
* `AbiType.encode` and `Data.encode` are total on data;
* `encodeValues` encodes what callers give: it checks their number, reads their spellings, compares
  them with the types, and only then writes.
-/
import LedgerAbi.Codec.Argument
import LedgerAbi.Codec.Datum

namespace LedgerAbi

/-- An encoded member of a sequence, and whether a pointer stands for it in the head. -/
structure Part where
  isDynamic : Bool
  bytes : Bytes

/-- A number as a word of 32 bytes. -/
def wordBytes (n : Nat) : Bytes := Bytes.ofNat 32 n

namespace Part

/-- How many bytes a part takes in the head. -/
def headSize (p : Part) : Nat := if p.isDynamic then 32 else p.bytes.length

/-- The head, when the first dynamic part starts at an offset. -/
def heads : Nat → List Part → Bytes
  | _, [] => []
  | offset, p :: rest =>
    if p.isDynamic then wordBytes offset ++ heads (offset + p.bytes.length) rest
    else p.bytes ++ heads offset rest

/-- The dynamic parts one after the other. -/
def tails (parts : List Part) : Bytes := parts.flatMap fun p => if p.isDynamic then p.bytes else []

end Part

/-- The head of some parts followed by their tail. -/
def layout (parts : List Part) : Bytes :=
  Part.heads (parts.map Part.headSize).sum parts ++ Part.tails parts

/-- A byte sequence: its length, then its bytes filled up with zeros to full words. -/
def blobBytes (b : Bytes) : Bytes := wordBytes b.length ++ Bytes.padEnd b (ceil32 b.length)

namespace AbiType

/-- The wire form of a datum. -/
def encode : (t : AbiType) → t.Datum → Bytes
  | address, a => List.replicate 12 0 ++ Address.bytes a
  | bool, b => wordBytes (bif b then 1 else 0)
  | string, t => blobBytes (Text.toUtf8 t)
  | bytes, b => blobBytes b
  | fixedBytes _, b => Bytes.padEnd b.val 32
  | uint _, n => wordBytes n.val
  | int _, i => wordBytes (i.val % 2 ^ 256).toNat
  | array e, items =>
    wordBytes (List.length items) ++ layout (List.map (fun d => ⟨e.isDynamic, encode e d⟩) items)
  | fixedArray e _, items => layout (items.val.map fun d => ⟨e.isDynamic, encode e d⟩)

end AbiType

namespace Data

/-- The encoded parts of data. -/
def parts : (types : List AbiType) → Data types → List Part
  | [], _ => []
  | t :: types, (d, rest) => ⟨t.isDynamic, t.encode d⟩ :: parts types rest

/-- The wire form of data. -/
def encode (types : List AbiType) (data : Data types) : Bytes := layout (parts types data)

end Data

/-- The wire form of values for their declared types. A value that fails the comparison is reported
with all values, so none of them may hold an integer that cannot be written out. -/
def encodeValues (types : List AbiType) (values : List Value) : Except Error Bytes :=
  if types.length ≠ values.length then .error (.arity (.values types values.length))
  else do
    let read ← Argument.readAll types values
    match Data.fit types read with
    | .error cause =>
      if Value.anyOverlong read then .error (.fault .overlongInteger)
      else .error (.encode (.misfit types cause))
    | .ok data =>
      if data.isScalarText types then .ok (data.encode types) else .error (.fault .unencodable)

/-- The wire form of one value. -/
def encodeValue (t : AbiType) (v : Value) : Except Error Bytes := encodeValues [t] [v]

end LedgerAbi
