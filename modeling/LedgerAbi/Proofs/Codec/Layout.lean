/-
Encoded data are read back.

* `Part.Laid` — the rest of a layout stands in the data, at one place for its head
  and at another one for its tail;
* `AbiType.decode_of_stands` — where the encoded form of a datum stands in the
  data, the datum is read;
* `Data.decode_encode` — the encoded form of a list of data, of any mix of
  static and dynamic types, is read back whole, also with surplus bytes behind.

Design notes: a layout is a head followed by a tail, and both are written from
left to right. The inductions over the members of a sequence therefore carry two
places, and the distance of the second one is the offset of the next pointer:
`Part.Laid.dynamic` and `Part.Laid.static` say what one member takes of each. The
decoders check pointers in a pass of their own, so each sequence has one induction
for the check and one for the members.
-/
import LedgerAbi.Proofs.Codec.Place
import LedgerAbi.Proofs.Text.Utf8

namespace LedgerAbi

/-! ### Sizes -/

namespace Part

@[simp] theorem length_heads (offset : Nat) (parts : List Part) :
    (heads offset parts).length = (parts.map headSize).sum := by
  induction parts generalizing offset with
  | nil => rfl
  | cons p rest ih =>
    rw [heads]
    split
    · next hp => simp [headSize, hp, ih]
    · next hp => simp [headSize, hp, ih]

/-! ### Layouts that stand in the data -/

/-- The rest of a layout stands in the data: what is left of its head at a place, what is left of its
tail at an offset from the start. -/
def Laid (data : Bytes) (start place offset : Nat) (parts : List Part) : Prop :=
  Stands data place (heads offset parts) ∧ Stands data (start + offset) (tails parts)

section Laid

variable {data : Bytes} {start place offset : Nat} {p : Part} {rest : List Part}

/-- A dynamic part has its pointer in the head and its bytes in the tail. -/
theorem Laid.dynamic (h : Laid data start place offset (p :: rest)) (hp : p.isDynamic = true) :
    Stands data place (wordBytes offset) ∧ Stands data (start + offset) p.bytes ∧
      Laid data start (place + 32) (offset + p.bytes.length) rest := by
  obtain ⟨hheads, htails⟩ := h
  rw [heads, if_pos hp, stands_append, length_wordBytes] at hheads
  rw [tails, List.flatMap_cons, if_pos hp, stands_append, Nat.add_assoc] at htails
  exact ⟨hheads.1, htails.1, hheads.2, htails.2⟩

/-- A static part has its bytes in the head and leaves the tail alone. -/
theorem Laid.static (h : Laid data start place offset (p :: rest)) (hp : p.isDynamic = false) :
    Stands data place p.bytes ∧ Laid data start (place + p.bytes.length) offset rest := by
  obtain ⟨hheads, htails⟩ := h
  have hnot : ¬ p.isDynamic = true := by simp [hp]
  rw [heads, if_neg hnot, stands_append] at hheads
  rw [tails, List.flatMap_cons, if_neg hnot, List.nil_append] at htails
  exact ⟨hheads.1, hheads.2, htails⟩

end Laid

theorem laid_layout {data : Bytes} {start : Nat} {parts : List Part}
    (h : Stands data start (layout parts)) :
    Laid data start start (parts.map headSize).sum parts := by
  obtain ⟨hheads, htails⟩ := stands_append.mp h
  rw [length_heads] at htails
  exact ⟨hheads, htails⟩

end Part

namespace AbiType

theorem headWords_pos (t : AbiType) : 0 < t.headWords := by
  induction t with
  | fixedArray e n ih =>
    simp only [headWords]
    split
    · omega
    · exact Nat.mul_pos n.pos ih
  | _ => simp [headWords]

theorem headWords_of_dynamic {t : AbiType} (h : t.isDynamic = true) : t.headWords = 1 := by
  cases t with
  | fixedArray e n =>
    simp only [isDynamic] at h
    simp [headWords, h]
  | _ => rfl

theorem pointerWords_le_headWords (t : AbiType) : t.pointerWords ≤ t.headWords := by
  cases t with
  | fixedArray e n =>
    simp only [pointerWords, headWords]
    split
    · omega
    · exact Nat.le_mul_of_pos_right _ e.headWords_pos
  | _ => simp [pointerWords, headWords]

/-- The part that a datum takes in the layout of a sequence. -/
def part (t : AbiType) (d : t.Datum) : Part := ⟨t.isDynamic, t.encode d⟩

theorem sum_headSize_map_part {e : AbiType}
    (ih : e.isDynamic = false → ∀ d : e.Datum, (e.encode d).length = 32 * e.headWords)
    (items : List e.Datum) :
    ((items.map e.part).map Part.headSize).sum = items.length * (32 * e.headWords) := by
  induction items with
  | nil => simp
  | cons d rest ihr =>
    have hd : (e.part d).headSize = 32 * e.headWords := by
      rw [Part.headSize]
      cases he : e.isDynamic with
      | true => rw [if_pos (show (e.part d).isDynamic = true from he), headWords_of_dynamic he]
      | false =>
        rw [if_neg (by simp [part, he])]
        exact ih he d
    rw [List.map_cons, List.map_cons, List.sum_cons, hd, ihr, List.length_cons, Nat.add_mul,
      Nat.one_mul, Nat.add_comm]

theorem tails_map_part {e : AbiType} (h : e.isDynamic = false) (items : List e.Datum) :
    Part.tails (items.map e.part) = [] := by
  induction items with
  | nil => rfl
  | cons d rest ih =>
    have hnot : ¬ (e.part d).isDynamic = true := by simp [part, h]
    rw [List.map_cons, Part.tails, List.flatMap_cons, if_neg hnot, List.nil_append]
    exact ih

/-- A datum of a static type takes the words that its type counts in a head. -/
theorem length_encode {t : AbiType} (h : t.isDynamic = false) (d : t.Datum) :
    (t.encode d).length = 32 * t.headWords := by
  induction t with
  | address =>
    have hd := Address.length_eq d
    simp [encode, headWords, hd]
  | bool => simp [encode, headWords]
  | string => cases h
  | bytes => cases h
  | fixedBytes w =>
    have hle : d.val.length ≤ 32 := Nat.le_trans (Nat.le_of_eq d.property) w.le
    simp only [encode, headWords, Bytes.length_padEnd hle]
  | uint w => simp [encode, headWords]
  | int w => simp [encode, headWords]
  | array e _ => cases h
  | fixedArray e n ih =>
    have he : e.isDynamic = false := h
    show (layout (d.val.map e.part)).length = _
    -- static items have no tails, and their heads are the items themselves
    rw [layout, List.length_append, Part.length_heads, tails_map_part he,
      sum_headSize_map_part (fun _ => ih he), d.property, List.length_nil, headWords,
      if_neg (by simp [he]), Nat.add_zero]
    exact Nat.mul_left_comm _ _ _

theorem headSize_part (t : AbiType) (d : t.Datum) : (t.part d).headSize = 32 * t.headWords := by
  simpa using sum_headSize_map_part (fun h => length_encode h) [d]

theorem sum_headSize (e : AbiType) (items : List e.Datum) :
    ((items.map e.part).map Part.headSize).sum = items.length * (32 * e.headWords) :=
  sum_headSize_map_part length_encode items

/-- Each item of a sequence takes a word at least. -/
theorem length_le_layout (e : AbiType) (items : List e.Datum) :
    32 * items.length ≤ (layout (items.map e.part)).length := by
  have hpos := e.headWords_pos
  have hle : items.length * 32 ≤ items.length * (32 * e.headWords) :=
    Nat.mul_le_mul_left _ (by omega)
  rw [layout, List.length_append, Part.length_heads, sum_headSize]
  omega

theorem length_le_of_stands {e : AbiType} {items : List e.Datum} {data : Bytes} {position : Nat}
    (h : Stands data position (layout (items.map e.part))) :
    32 * items.length ≤ data.length := by
  have hle := length_le_layout e items
  by_cases hpos : 0 < (layout (items.map e.part)).length
  · have := h.length_le hpos
    omega
  · omega

theorem encode_pos (t : AbiType) (d : t.Datum) : 0 < (t.encode d).length := by
  cases t with
  | string =>
    show 0 < (blobBytes _).length
    rw [length_blobBytes]
    omega
  | bytes =>
    have h := length_blobBytes d
    show 0 < (blobBytes d).length
    omega
  | array e =>
    simp only [encode, List.length_append, length_wordBytes]
    omega
  | fixedArray e n =>
    have hn := n.pos
    have hle := length_le_layout e d.val
    rw [d.property] at hle
    show 0 < (layout (d.val.map e.part)).length
    omega
  | _ =>
    rw [length_encode rfl]
    exact Nat.mul_pos (by decide) (headWords_pos _)

/-! ### Reading an array -/

/-- An item of an array whose pointers count from `start`: behind the pointer at its place, or at the
place itself. -/
def readMember (e : AbiType) (data : Bytes) (start place : Nat) : Except Corruption e.Datum := do
  if e.isDynamic then
    let pointer ← readNumber data place
    e.decode data (start + pointer)
  else e.decode data place

theorem decode_array {e : AbiType} {data : Bytes} {position : Nat} {items : List e.Datum}
    (hcount : readNumber data position = .ok items.length)
    (hcheck : e.isDynamic = true →
      checkPointers data (position + 32) (32 * items.length) items.length (position + 32) = .ok ())
    (hread : readMany (e.readMember data (position + 32)) (32 * e.headWords) items.length
      (position + 32) = .ok items) :
    (array e).decode data position = .ok items := by
  show (do
    let count ← readNumber data position
    if e.isDynamic then checkPointers data (position + 32) (32 * count) count (position + 32)
    readMany (e.readMember data (position + 32)) (32 * e.headWords) count (position + 32) :
      Except Corruption (List e.Datum)) = .ok items
  rw [hcount]
  simp only [bind, Except.bind]
  split
  · next he =>
    rw [hcheck he]
    exact hread
  · exact hread

theorem decode_fixedArray {e : AbiType} {n : Length} {data : Bytes} {start : Nat}
    {d : (fixedArray e n).Datum}
    (hcheck : e.isDynamic = true →
      checkPointers data start (32 * n.items) n.items start = .ok ())
    (hread : readMany (e.readMember data start) (32 * e.headWords) n.items start = .ok d.val) :
    (fixedArray e n).decode data start = .ok d := by
  rw [decode]
  simp only [bind, Except.bind]
  -- the check stands in one branch only, but what follows it is the same
  split
  · next he =>
    rw [hcheck he]
    simp only
    split
    · next items h => exact congrArg Except.ok (Subtype.ext (Except.ok.inj (h.symm.trans hread)))
    · next cause h => cases h.symm.trans hread
  · split
    · next items h => exact congrArg Except.ok (Subtype.ext (Except.ok.inj (h.symm.trans hread)))
    · next cause h => cases h.symm.trans hread

section Members

variable {e : AbiType} {data : Bytes} (hdata : data.length < 2 ^ 63)
include hdata

theorem checkPointers_of_laid (he : e.isDynamic = true) (start headSize : Nat)
    (items : List e.Datum) (place offset : Nat) (hhead : headSize ≤ offset)
    (hlaid : Part.Laid data start place offset (items.map e.part)) :
    checkPointers data start headSize items.length place = .ok () := by
  induction items generalizing place offset with
  | nil => rfl
  | cons d rest ih =>
    obtain ⟨hpointer, hbytes, hrest⟩ := hlaid.dynamic he
    rw [List.length_cons, checkPointers,
      checkPointer_of_stands hpointer hhead hbytes (e.encode_pos d) hdata]
    -- the next pointer leads further, so it leads past the head as well
    exact ih (place + 32) (offset + (e.part d).bytes.length) (by omega) hrest

/-- If data are read where they stand, so is an array of them. -/
theorem readMany_of_laid
    (hitem : ∀ (d : e.Datum) (place : Nat), e.isScalarText d = true →
      Stands data place (e.encode d) → e.decode data place = .ok d)
    (start : Nat) (items : List e.Datum) (htext : items.all e.isScalarText = true)
    (place offset : Nat) (hlaid : Part.Laid data start place offset (items.map e.part)) :
    readMany (e.readMember data start) (32 * e.headWords) items.length place = .ok items := by
  -- the place in the head and the offset of the next tail move along with the items
  induction items generalizing place offset with
  | nil => rfl
  | cons d rest ih =>
    rw [List.all_cons, Bool.and_eq_true] at htext
    cases he : e.isDynamic with
    | true =>
      obtain ⟨hpointer, hbytes, hrest⟩ := hlaid.dynamic he
      have hbound := hbytes.length_le (e.encode_pos d)
      have hmember : e.readMember data start place = .ok d := by
        rw [readMember, if_pos he, readNumber_of_stands hpointer (by omega)]
        exact hitem d _ htext.1 hbytes
      have hitems := ih htext.2 (place + 32) (offset + (e.part d).bytes.length) hrest
      rw [headWords_of_dynamic he] at hitems ⊢
      rw [List.length_cons, readMany, hmember, hitems]
      rfl
    | false =>
      obtain ⟨hbytes, hrest⟩ := hlaid.static he
      have hmember : e.readMember data start place = .ok d := by
        rw [readMember, if_neg (by simp [he])]
        exact hitem d _ htext.1 hbytes
      have hlength : (e.part d).bytes.length = 32 * e.headWords := length_encode he d
      rw [hlength] at hrest
      rw [List.length_cons, readMany, hmember, ih htext.2 _ offset hrest]
      rfl

/-- An array that stands in the data passes the check of its pointers and is read. -/
theorem readItems_of_stands
    (hitem : ∀ (d : e.Datum) (place : Nat), e.isScalarText d = true →
      Stands data place (e.encode d) → e.decode data place = .ok d)
    {items : List e.Datum} (htext : items.all e.isScalarText = true) {start : Nat}
    (h : Stands data start (layout (items.map e.part))) :
    (e.isDynamic = true →
      checkPointers data start (32 * items.length) items.length start = .ok ()) ∧
    readMany (e.readMember data start) (32 * e.headWords) items.length start = .ok items := by
  have hlaid := Part.laid_layout h
  refine ⟨fun he => ?_, readMany_of_laid hdata hitem start items htext start _ hlaid⟩
  have hhead : 32 * items.length = ((items.map e.part).map Part.headSize).sum := by
    rw [sum_headSize, headWords_of_dynamic he, Nat.mul_one, Nat.mul_comm]
  exact checkPointers_of_laid hdata he start _ items start _ (Nat.le_of_eq hhead) hlaid

end Members

/-! ### Reading one datum -/

theorem toNat_emod_mod {m n : Nat} (hn : 0 < n) (h : m ∣ n) (i : Int) :
    (((i % (n : Int)).toNat % m : Nat) : Int) = i % (m : Int) := by
  rw [Int.natCast_emod, Int.toNat_of_nonneg (Int.emod_nonneg i (by omega)),
    Int.emod_emod_of_dvd i (Int.natCast_dvd_natCast.mpr h)]

/-- A number in two's complement has its own sign. -/
theorem signedNumber_emod (w : Width) {i : Int} (hlow : -(2 ^ (w.bits - 1) : Int) ≤ i)
    (hhigh : i < (2 ^ (w.bits - 1) : Int)) :
    signedNumber w.bits (i % 2 ^ 256).toNat = i := by
  obtain ⟨k, hk, hk256⟩ : ∃ k, w.bits = k + 1 ∧ k + 1 ≤ 256 := ⟨w.bits - 1, by
    have := w.pos
    have := w.le
    simp only [Width.bits]
    omega⟩
  have hcast : (2 : Int) ^ k = ((2 ^ k : Nat) : Int) := by simp
  rw [hk, Nat.add_sub_cancel, hcast] at hlow hhigh
  -- the low bits of the word are those of the number itself
  have hmod := toNat_emod_mod (Nat.two_pow_pos 256) (Nat.pow_dvd_pow 2 hk256) i
  rw [show ((2 ^ 256 : Nat) : Int) = 2 ^ 256 by simp] at hmod
  simp only [signedNumber, hk, Nat.add_sub_cancel]
  generalize (i % 2 ^ 256).toNat % 2 ^ (k + 1) = low at hmod ⊢
  have hpow : 2 ^ (k + 1) = 2 ^ k + 2 ^ k := by
    rw [Nat.pow_succ]
    omega
  rw [hpow] at hmod ⊢
  generalize 2 ^ k = half at hlow hhigh hmod ⊢
  by_cases hi : 0 ≤ i
  · rw [Int.emod_eq_of_lt hi (by omega)] at hmod
    rw [if_pos (by omega), hmod]
  · rw [← Int.add_emod_right, Int.emod_eq_of_lt (by omega) (by omega)] at hmod
    rw [if_neg (by omega)]
    omega

/-- **Where a datum stands, it is read**, whatever stands before, between and behind its bytes. -/
theorem decode_of_stands {t : AbiType} (d : t.Datum) (htext : t.isScalarText d = true)
    {data : Bytes} (hdata : data.length < 2 ^ 63) {position : Nat}
    (h : Stands data position (t.encode d)) : t.decode data position = .ok d := by
  induction t generalizing position with
  | address =>
    have hd := Address.length_eq d
    have hword := readWord_of_stands h (by simp [encode, hd])
    simp only [decode, hword, bind, Except.bind]
    rw [dif_pos (by simp [encode, hd])]
    simp [encode]
    rfl
  | bool =>
    cases d with
    | true => simp only [decode, readNumber_of_stands (n := 1) h (by decide), bind, Except.bind]; rfl
    | false => simp only [decode, readNumber_of_stands (n := 0) h (by decide), bind, Except.bind]; rfl
  | string =>
    have hblob : readBlob data position = .ok (Text.toUtf8 d) := readBlob_of_stands h hdata
    have hutf8 : Text.ofUtf8? (Text.toUtf8 d) = some d := Text.ofUtf8?_toUtf8 htext
    simp only [decode, hblob, bind, Except.bind, hutf8]
  | bytes => exact readBlob_of_stands h hdata
  | fixedBytes w =>
    obtain ⟨b, hb⟩ := d
    have hle : b.length ≤ 32 := Nat.le_trans (Nat.le_of_eq hb) w.le
    have hlen : (Bytes.padEnd b 32).length = 32 := Bytes.length_padEnd hle
    -- the decoder insists on zeros behind the bytes, and these are the padding
    have hdrop : ((Bytes.padEnd b 32).drop w.bytes).all (· == 0) = true := by
      rw [← hb]
      simp [Bytes.padEnd, List.all_replicate]
    have hword := readWord_of_stands h hlen
    simp only [decode, hword, bind, Except.bind, encode]
    rw [dif_pos ⟨hlen, hdrop⟩]
    refine congrArg Except.ok (Subtype.ext ?_)
    show (Bytes.padEnd b 32).take w.bytes = b
    rw [← hb]
    simp [Bytes.padEnd]
  | uint w =>
    obtain ⟨n, hn⟩ := d
    have hbits : w.bits ≤ 256 := by
      have := w.le
      simp only [Width.bits]
      omega
    have hlt : n < 2 ^ 256 := Nat.lt_of_lt_of_le hn (Nat.pow_le_pow_right (by decide) hbits)
    simp only [decode, readNumber_of_stands (n := n) h hlt, bind, Except.bind]
    rw [dif_pos hn]
  | int w =>
    obtain ⟨i, hlow, hhigh⟩ := d
    have hnumber : readNumber data position = .ok (i % 2 ^ 256).toNat := by
      refine readNumber_of_stands h ?_
      have := Int.emod_lt_of_pos i (show (0 : Int) < 2 ^ 256 by decide)
      have := Int.emod_nonneg i (show (2 : Int) ^ 256 ≠ 0 by decide)
      omega
    have hi := signedNumber_emod w hlow hhigh
    -- the number gets a name: simplifying would work on the power inside it
    obtain ⟨n, hn⟩ : ∃ n, n = (i % 2 ^ 256).toNat := ⟨_, rfl⟩
    rw [← hn] at hnumber hi
    simp only [decode, hnumber, bind, Except.bind]
    rw [if_pos (by rw [hi, hn])]
    exact congrArg Except.ok (Subtype.ext hi)
  | array e ih =>
    obtain ⟨hcount, hlayout⟩ := stands_append.mp h
    rw [length_wordBytes] at hlayout
    -- each item takes a word, so the count is far below the bound of a word
    have hsize : 32 * List.length d ≤ data.length := length_le_of_stands hlayout
    obtain ⟨hcheck, hread⟩ := readItems_of_stands hdata
      (fun d place ht hd => ih d ht hd) htext hlayout
    exact decode_array (readNumber_of_stands hcount (by omega)) hcheck hread
  | fixedArray e n ih =>
    obtain ⟨hcheck, hread⟩ := readItems_of_stands hdata
      (fun d place ht hd => ih d ht hd) htext h
    rw [d.property] at hcheck hread
    exact decode_fixedArray hcheck hread

end AbiType

namespace Data

theorem pointerWords_le_headSize (types : List AbiType) (values : Data types) :
    32 * (types.map AbiType.pointerWords).sum ≤
      ((values.parts types).map Part.headSize).sum := by
  induction types with
  | nil => exact Nat.le_refl _
  | cons t types ih =>
    obtain ⟨d, rest⟩ := values
    have hle := t.pointerWords_le_headWords
    have hrest := ih rest
    have hd : (t.part d).headSize = 32 * t.headWords := t.headSize_part d
    show 32 * (t.pointerWords + (types.map AbiType.pointerWords).sum) ≤
      (t.part d).headSize + ((rest.parts types).map Part.headSize).sum
    omega

section Head

variable {data : Bytes} (hdata : data.length < 2 ^ 63)
include hdata

/-- The first pass over a head accepts what was written. -/
theorem checkHead_of_laid (headSize : Nat) (types : List AbiType) (values : Data types)
    (htext : values.isScalarText types = true) (place offset : Nat) (hhead : headSize ≤ offset)
    (hlaid : Part.Laid data 0 place offset (values.parts types)) :
    checkHead data headSize types place = .ok () := by
  induction types generalizing place offset with
  | nil => rfl
  | cons t types ih =>
    obtain ⟨d, rest⟩ := values
    have htexts : t.isScalarText d = true ∧ rest.isScalarText types = true := by
      simpa [isScalarText] using htext
    replace hlaid : Part.Laid data 0 place offset (t.part d :: rest.parts types) := hlaid
    cases ht : t.isDynamic with
    | true =>
      obtain ⟨hpointer, hbytes, hrest⟩ := hlaid.dynamic ht
      rw [checkHead, if_pos ht,
        checkPointer_of_stands hpointer hhead hbytes (t.encode_pos d) hdata,
        AbiType.headWords_of_dynamic ht]
      -- the next tail begins behind this one, so behind the head as well
      exact ih rest htexts.2 _ _ (by omega) hrest
    | false =>
      obtain ⟨hbytes, hrest⟩ := hlaid.static ht
      have hlength : (t.part d).bytes.length = 32 * t.headWords := AbiType.length_encode ht d
      rw [hlength] at hrest
      rw [checkHead, if_neg (by simp [ht]), AbiType.decode_of_stands d htexts.1 hdata hbytes]
      exact ih rest htexts.2 _ _ hhead hrest

/-- The second pass reads the data that were written. -/
theorem readHead_of_laid (types : List AbiType) (values : Data types)
    (htext : values.isScalarText types = true) (place offset : Nat)
    (hlaid : Part.Laid data 0 place offset (values.parts types)) :
    readHead data types place = .ok values := by
  induction types generalizing place offset with
  | nil => rfl
  | cons t types ih =>
    obtain ⟨d, rest⟩ := values
    have htexts : t.isScalarText d = true ∧ rest.isScalarText types = true := by
      simpa [isScalarText] using htext
    replace hlaid : Part.Laid data 0 place offset (t.part d :: rest.parts types) := hlaid
    cases ht : t.isDynamic with
    | true =>
      obtain ⟨hpointer, hbytes, hrest⟩ := hlaid.dynamic ht
      rw [Nat.zero_add] at hbytes
      have hbound := hbytes.length_le (t.encode_pos d)
      have hnumber := readNumber_of_stands hpointer (by omega)
      have hread := AbiType.decode_of_stands d htexts.1 hdata hbytes
      have hvalues := ih rest htexts.2 _ _ hrest
      simp only [readHead, ht, if_true, hnumber, bind, Except.bind, hread,
        AbiType.headWords_of_dynamic ht, Nat.mul_one, hvalues]
    | false =>
      obtain ⟨hbytes, hrest⟩ := hlaid.static ht
      have hlength : (t.part d).bytes.length = 32 * t.headWords := AbiType.length_encode ht d
      rw [hlength] at hrest
      have hread := AbiType.decode_of_stands d htexts.1 hdata hbytes
      have hvalues := ih rest htexts.2 _ _ hrest
      simp only [readHead, ht, Bool.false_eq_true, if_false, bind, Except.bind, hread, hvalues]

end Head

/-- **Encoded data are read back whole**; bytes behind them do not matter. -/
theorem decode_encode (types : List AbiType) (values : Data types)
    (htext : values.isScalarText types = true) (surplus : Bytes)
    (hlength : (values.encode types ++ surplus).length < 2 ^ 63) :
    decode types (values.encode types ++ surplus) = .ok values := by
  have hlayout := (stands_append.mp (stands_self (values.encode types ++ surplus))).1
  have hlaid := Part.laid_layout hlayout
  rw [decode, checkHead_of_laid hlength _ types values htext 0 _
    (pointerWords_le_headSize types values) hlaid]
  exact readHead_of_laid hlength types values htext 0 _ hlaid

end Data

end LedgerAbi
