/-
Reading the wire form.

Reading is strict: every word is read in full, padding has to be what an encoder writes, and before
the members of a sequence are read, each pointer has to lead past its head and into the data. Pointers
may overlap and need not be multiples of 32, and bytes that nothing points to are ignored.

* `AbiType.decode` reads a datum at a position of the data;
* `Data.decode` reads data for a list of types from the start of the data;
* `decodeValues` gives the values that callers see.
-/
import LedgerAbi.Codec.Datum

namespace LedgerAbi

/-- The 32 bytes at a position. -/
def readWord (data : Bytes) (position : Nat) : Except Corruption Bytes :=
  let word := (data.drop position).take 32
  if word.length = 32 then .ok word else .error .truncated

/-- The number in the word at a position. -/
def readNumber (data : Bytes) (position : Nat) : Except Corruption Nat := do
  let word ← readWord data position
  .ok (Bytes.toNat word)

/-- The pointer at a position, if it leads past a head of the given size and into the data. -/
def checkPointer (data : Bytes) (start headSize position : Nat) : Except Corruption Unit := do
  let pointer ← readNumber data position
  if pointer < headSize ∨ data.length ≤ start + pointer then .error .strayPointer else .ok ()

/-- A number of pointers from a position on. -/
def checkPointers (data : Bytes) (start headSize : Nat) : Nat → Nat → Except Corruption Unit
  | 0, _ => .ok ()
  | count + 1, position => do
    checkPointer data start headSize position
    checkPointers data start headSize count (position + 32)

/-- A number of items, a fixed distance apart. -/
def readMany {α : Type} (read : Nat → Except Corruption α) (step : Nat) :
    Nat → Nat → Except Corruption (List α)
  | 0, _ => .ok []
  | count + 1, position => do
    let item ← read position
    let items ← readMany read step count (position + step)
    .ok (item :: items)

theorem length_readMany {α : Type} {read : Nat → Except Corruption α} {step count position : Nat}
    {items : List α} (h : readMany read step count position = .ok items) : items.length = count := by
  induction count generalizing position items with
  | zero =>
    simp only [readMany, Except.ok.injEq] at h
    simp [← h]
  | succ count ih =>
    simp only [readMany, bind, Except.bind] at h
    split at h
    · cases h
    · split at h
      · cases h
      · rename_i rest hrest
        simp only [Except.ok.injEq] at h
        simp [← h, ih hrest]

/-- The byte sequence whose length stands at a position. -/
def readBlob (data : Bytes) (position : Nat) : Except Corruption Bytes := do
  let length ← readNumber data position
  let padded := ceil32 length
  if 2 ^ 63 ≤ padded then .error .lengthOverflow
  else
    let found := (data.drop (position + 32)).take padded
    if found.length < padded then .error .truncated
    else if (found.drop length).all (· == 0) then .ok (found.take length)
    else .error .dirtyPadding

/-- The integer of a width that a number below `2 ^ 256` is the two's complement of. -/
def signedNumber (bits n : Nat) : Int :=
  let low := n % 2 ^ bits
  if low < 2 ^ (bits - 1) then low else (low : Int) - (2 ^ bits : Nat)

theorem signedNumber_bounds (w : Width) (n : Nat) :
    -(2 ^ (w.bits - 1) : Int) ≤ signedNumber w.bits n ∧
      signedNumber w.bits n < (2 ^ (w.bits - 1) : Int) := by
  have hw : 0 < w.bits := by
    have := w.pos
    simp only [Width.bits]
    omega
  obtain ⟨k, hk⟩ : ∃ k, w.bits = k + 1 := ⟨w.bits - 1, by omega⟩
  have hlow : n % 2 ^ (k + 1) < 2 ^ (k + 1) := Nat.mod_lt _ (Nat.two_pow_pos _)
  have hcast : (2 : Int) ^ k = ((2 ^ k : Nat) : Int) := by simp
  rw [hk]
  simp only [signedNumber, Nat.add_sub_cancel, hcast]
  rw [Nat.pow_succ] at hlow ⊢
  split <;> omega

namespace AbiType

/-- The datum of a type at a position. -/
def decode : (t : AbiType) → Bytes → Nat → Except Corruption t.Datum
  | address, data, position => do
    let word ← readWord data position
    if h : word.length = 32 ∧ word.take 12 = List.replicate 12 0 then
      .ok ⟨word.drop 12, by simp [h.1]⟩
    else .error .dirtyPadding
  | bool, data, position => do
    let n ← readNumber data position
    if n = 0 then .ok false else if n = 1 then .ok true else .error .dirtyPadding
  | string, data, position => do
    let b ← readBlob data position
    match Text.ofUtf8? b with
    | some t => .ok t
    | none => .error .invalidUtf8
  | bytes, data, position => readBlob data position
  | fixedBytes w, data, position => do
    let word ← readWord data position
    if h : word.length = 32 ∧ (word.drop w.bytes).all (· == 0) then
      .ok ⟨word.take w.bytes, by have := w.le; simp only [List.length_take, h.1]; omega⟩
    else .error .dirtyPadding
  | uint w, data, position => do
    let n ← readNumber data position
    if h : n < 2 ^ w.bits then .ok ⟨n, h⟩ else .error .dirtyPadding
  | int w, data, position => do
    let n ← readNumber data position
    let i := signedNumber w.bits n
    if (i % 2 ^ 256).toNat = n then .ok ⟨i, signedNumber_bounds w n⟩ else .error .dirtyPadding
  | array e, data, position => do
    let count ← readNumber data position
    let start := position + 32
    if e.isDynamic then checkPointers data start (32 * count) count start
    readMany (fun place => do
      if e.isDynamic then
        let pointer ← readNumber data place
        decode e data (start + pointer)
      else decode e data place) (32 * e.headWords) count start
  | fixedArray e n, data, start => do
    if e.isDynamic then checkPointers data start (32 * n.items) n.items start
    match h : readMany (fun place => do
      if e.isDynamic then
        let pointer ← readNumber data place
        decode e data (start + pointer)
      else decode e data place) (32 * e.headWords) n.items start with
    | .ok items => .ok ⟨items, length_readMany h⟩
    | .error cause => .error cause

/-- How many words of a head a member counts for when pointers are checked: one, but a fixed array of
a static type counts its items. -/
def pointerWords : AbiType → Nat
  | fixedArray e n => if e.isDynamic then 1 else n.items
  | _ => 1

end AbiType

namespace Data

/-- The first pass over the head of a sequence: pointers are checked and static members read. -/
def checkHead (data : Bytes) (headSize : Nat) : List AbiType → Nat → Except Corruption Unit
  | [], _ => .ok ()
  | t :: types, position => do
    if t.isDynamic then checkPointer data 0 headSize position
    else let _ ← t.decode data position
    checkHead data headSize types (position + 32 * t.headWords)

/-- The second pass: members are read in place or behind their pointers. -/
def readHead (data : Bytes) : (types : List AbiType) → Nat → Except Corruption (Data types)
  | [], _ => .ok ()
  | t :: types, position => do
    let place ← if t.isDynamic then readNumber data position else .ok position
    let d ← t.decode data place
    let rest ← readHead data types (position + 32 * t.headWords)
    .ok (d, rest)

/-- The data of a list of types at the start of some bytes. -/
def decode (types : List AbiType) (data : Bytes) : Except Corruption (Data types) := do
  checkHead data (32 * (types.map AbiType.pointerWords).sum) types 0
  readHead data types 0

end Data

/-- The values of a list of types that bytes are the wire form of. -/
def decodeBytes (types : List AbiType) (data : Bytes) : Except Error (List Value) :=
  match Data.decode types data with
  | .ok values => .ok (values.toValues types)
  | .error cause => .error (.decode (.corrupt data.length types cause))

/-- The values of a list of types that a hexadecimal text is the wire form of. -/
def decodeText (types : List AbiType) (data : Text) : Except Error (List Value) :=
  match Hex.read? data with
  | some bytes => decodeBytes types bytes
  | none => .error (.decode (.notHex data))

/-- The values of a list of types that raw bytes or a hexadecimal text are the wire form of. -/
def decodeValues (types : List AbiType) (data : Value) : Except Error (List Value) :=
  match data with
  | .bytes b => decodeBytes types b
  | .text t => decodeText types t
  | _ => .error (.fault .wrongKind)

end LedgerAbi
