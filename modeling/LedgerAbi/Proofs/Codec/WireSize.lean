/-
How many bytes a value takes on the wire.

* `AbiType.lengthProduct` — the product of the array lengths of a type;
* `AbiType.headWords_of_static` — as many words has every value of a static type;
* `BasicSyntax.isDynamic` — what makes a type dynamic, told from the name that the coder is
  given and not by recursion on the type;
* `AbiType.exists_length_encode_ne` — a dynamic type has data of different sizes;
* `AbiType.isDynamic_agrees` — so a type is called dynamic just where its name says so, where
  a pointer stands for its values, and where their size depends on the value.

Design notes: sizes are those of data, and values come in at the end: an accepted value is
written as some datum, and a datum is written if callers hand it in as they see it.  Two
sizes are carried outwards through the dimensions of a type.  An open array has them whatever
its items are, a fixed array takes two items of different sizes and repeats each of them.
-/
import LedgerAbi.Proofs.Abi.CanonicalName
import LedgerAbi.Proofs.Codec.Canonical

namespace LedgerAbi

/-! ### Dynamic names -/

namespace BasicSyntax

/-- True if some dimension is open, or if the base is one of a text or of bytes without a size. -/
def isDynamic (b : BasicSyntax) : Bool :=
  b.dimensions.any Option.isNone || b.base == "string" || (b.base == "bytes" && b.suffix.isNone)

theorem isDynamic_inArray (b : BasicSyntax) (d : Option Length) :
    (b.inArray d).isDynamic = (d.isNone || b.isDynamic) := by
  simp only [isDynamic, inArray, List.any_append, List.any_cons, List.any_nil, Bool.or_false]
  rw [Bool.or_comm (b.dimensions.any Option.isNone), Bool.or_assoc, Bool.or_assoc, Bool.or_assoc]

end BasicSyntax

namespace AbiType

theorem isDynamic_basic (t : AbiType) : t.basic.isDynamic = t.isDynamic := by
  induction t with
  | array e ih =>
    rw [basic, BasicSyntax.isDynamic_inArray]
    rfl
  | fixedArray e n ih =>
    rw [basic, BasicSyntax.isDynamic_inArray, ih]
    rfl
  | _ => rfl

/-! ### Static types -/

/-- The product of the lengths of all fixed arrays in a type. -/
def lengthProduct : AbiType → Nat
  | array e => lengthProduct e
  | fixedArray e n => n.items * lengthProduct e
  | _ => 1

theorem headWords_of_static {t : AbiType} (h : t.isDynamic = false) :
    t.headWords = t.lengthProduct := by
  induction t with
  | array e ih => cases h
  | fixedArray e n ih =>
    have he : e.isDynamic = false := h
    rw [headWords, if_neg (by simp [he]), ih he, lengthProduct]
  | _ => rfl

/-! ### Two sizes -/

theorem length_tails_map_part {e : AbiType} (h : e.isDynamic = true) (items : List e.Datum) :
    (Part.tails (items.map e.part)).length = (items.map fun d => (e.encode d).length).sum := by
  induction items with
  | nil => rfl
  | cons d rest ih =>
    have hd : (e.part d).isDynamic = true := h
    rw [List.map_cons, Part.tails, List.flatMap_cons, if_pos hd, List.length_append, List.map_cons,
      List.sum_cons, ← ih]
    rfl

/-- The same item over and over. -/
def repeated {e : AbiType} (n : Length) (d : e.Datum) : (fixedArray e n).Datum :=
  ⟨List.replicate n.items d, List.length_replicate⟩

theorem isScalarText_repeated {e : AbiType} {d : e.Datum} (h : e.isScalarText d = true)
    (n : Length) : (fixedArray e n).isScalarText (repeated n d) = true := by
  refine List.all_eq_true.mpr fun x hx => ?_
  rw [List.eq_of_mem_replicate hx, h]

/-- Every repetition takes a pointer and the bytes of the item. -/
theorem length_encode_repeated {e : AbiType} (h : e.isDynamic = true) (n : Length) (d : e.Datum) :
    ((fixedArray e n).encode (repeated n d)).length = n.items * (32 + (e.encode d).length) := by
  show (layout ((List.replicate n.items d).map e.part)).length = _
  rw [layout, List.length_append, Part.length_heads, sum_headSize, length_tails_map_part h,
    headWords_of_dynamic h, List.length_replicate, List.map_replicate, List.sum_replicate_nat,
    Nat.mul_one, ← Nat.mul_add]

/-- Every type has a datum that can be written. -/
theorem exists_datum (t : AbiType) : ∃ d : t.Datum, t.isScalarText d = true := by
  induction t with
  | address => exact ⟨Address.zero, rfl⟩
  | bool => exact ⟨false, rfl⟩
  | string => exact ⟨([] : Text), rfl⟩
  | bytes => exact ⟨([] : Bytes), rfl⟩
  | fixedBytes w => exact ⟨⟨List.replicate w.bytes 0, List.length_replicate⟩, rfl⟩
  | uint w => exact ⟨⟨0, Nat.two_pow_pos _⟩, rfl⟩
  | int w =>
    have hpos : (0 : Int) < 2 ^ (w.bits - 1) := Int.pow_pos (by decide)
    exact ⟨⟨0, by omega, hpos⟩, rfl⟩
  | array e ih => exact ⟨([] : List e.Datum), rfl⟩
  | fixedArray e n ih =>
    obtain ⟨d, hd⟩ := ih
    exact ⟨repeated n d, isScalarText_repeated hd n⟩

theorem exists_length_encode_ne {t : AbiType} (h : t.isDynamic = true) :
    ∃ d d' : t.Datum, t.isScalarText d = true ∧ t.isScalarText d' = true ∧
      (t.encode d).length ≠ (t.encode d').length := by
  induction t with
  | string => exact ⟨([] : Text), [.char 'a'], rfl, rfl, by decide⟩
  | bytes => exact ⟨([] : Bytes), [0], rfl, rfl, by decide⟩
  | array e ih =>
    -- none and one, so that `ih` is not needed and the item may be of a static type
    obtain ⟨d, hd⟩ := e.exists_datum
    have hitem : [d].all e.isScalarText = true := by rw [List.all_cons, hd]; rfl
    have hone := length_le_layout e [d]
    have hnone : (layout (([] : List e.Datum).map e.part)).length = 0 := rfl
    refine ⟨([] : List e.Datum), [d], rfl, hitem, ?_⟩
    show (wordBytes 0 ++ layout (([] : List e.Datum).map e.part)).length ≠
      (wordBytes 1 ++ layout ([d].map e.part)).length
    rw [List.length_append, List.length_append, length_wordBytes, length_wordBytes, hnone]
    rw [List.length_singleton] at hone
    omega
  | fixedArray e n ih =>
    have he : e.isDynamic = true := h
    obtain ⟨d, d', hd, hd', hne⟩ := ih he
    refine ⟨repeated n d, repeated n d', isScalarText_repeated hd n,
      isScalarText_repeated hd' n, ?_⟩
    rw [length_encode_repeated he, length_encode_repeated he, ne_eq,
      Nat.mul_left_cancel_iff n.pos]
    omega
  | _ => cases h

/-! ### Values -/

theorem exists_datum_of_encodeValue {t : AbiType} {v : Value} {b : Bytes}
    (h : encodeValue t v = .ok b) : ∃ d : t.Datum, layout [t.part d] = b := by
  obtain ⟨-, -, ⟨d, rest⟩, -, -, -, hb⟩ := encodeValues_eq_ok h
  exact ⟨d, hb⟩

theorem encodeValue_toValue {t : AbiType} {d : t.Datum} (h : t.isScalarText d = true) :
    encodeValue t (t.toValue d) = .ok (layout [t.part d]) := by
  have htext : Data.isScalarText [t] (d, ()) = true := by
    show (t.isScalarText d && true) = true
    rw [h, Bool.and_true]
  exact encodeValues_toValues htext

theorem layout_of_static {t : AbiType} (h : t.isDynamic = false) (d : t.Datum) :
    layout [t.part d] = t.encode d := by
  simp [layout, Part.heads, Part.tails, part, h]

theorem layout_of_dynamic {t : AbiType} (h : t.isDynamic = true) (d : t.Datum) :
    layout [t.part d] = wordBytes 32 ++ t.encode d := by
  simp [layout, Part.heads, Part.tails, Part.headSize, part, h]

/-- **Dynamic types are those whose values differ in size**, and the name of a type tells which they
are. A value of a static type takes one word for each scalar in it; one of a dynamic type starts
with a pointer to the place behind this pointer. -/
theorem isDynamic_agrees (t : AbiType) :
    (∃ b, TypeSyntax.parse? t.canonical = some (.basic b) ∧ b.isDynamic = t.isDynamic) ∧
    (t.isDynamic = false →
      (∃ v b, encodeValue t v = .ok b) ∧
      ∀ v b, encodeValue t v = .ok b → b.length = 32 * t.lengthProduct) ∧
    (t.isDynamic = true →
      (∀ v b, encodeValue t v = .ok b → ∃ rest, b = List.replicate 31 0 ++ 32 :: rest) ∧
      ∃ v w b c, encodeValue t v = .ok b ∧ encodeValue t w = .ok c ∧ b.length ≠ c.length) := by
  refine ⟨⟨t.basic, ?_, t.isDynamic_basic⟩, fun h => ⟨?_, ?_⟩, fun h => ⟨?_, ?_⟩⟩
  · rw [← text_basic]
    exact TypeSyntax.parse?_text t.isWritable_basic
  · obtain ⟨d, hd⟩ := t.exists_datum
    exact ⟨_, _, encodeValue_toValue hd⟩
  · intro v b hb
    obtain ⟨d, rfl⟩ := exists_datum_of_encodeValue hb
    rw [layout_of_static h, length_encode h, headWords_of_static h]
  · intro v b hb
    obtain ⟨d, rfl⟩ := exists_datum_of_encodeValue hb
    exact ⟨t.encode d, layout_of_dynamic h d⟩
  · obtain ⟨d, d', hd, hd', hne⟩ := exists_length_encode_ne h
    refine ⟨_, _, _, _, encodeValue_toValue hd, encodeValue_toValue hd', ?_⟩
    -- the pointer takes one word in both
    rw [layout_of_dynamic h, layout_of_dynamic h, List.length_append, List.length_append]
    omega

/-- Three pairs. -/
def pairs (e : AbiType) : AbiType := fixedArray (fixedArray e ⟨2, Nat.two_pos⟩) ⟨3, by decide⟩

/-- Three pairs of small numbers take six words; three pairs of strings take a pointer and more. -/
theorem isDynamic_agrees_pairs :
    (∃ b, encodeValue (pairs (uint ⟨1, by decide, by decide⟩))
      (.list [.list [.int 0, .int 1], .list [.int 2, .int 3], .list [.int 4, .int 5]]) = .ok b ∧
      b.length = 192) ∧
    ∃ v w b c, encodeValue (pairs string) v = .ok b ∧ encodeValue (pairs string) w = .ok c ∧
      b.length ≠ c.length := by
  obtain ⟨-, hstatic, -⟩ := isDynamic_agrees (pairs (uint ⟨1, by decide, by decide⟩))
  obtain ⟨-, -, hdynamic⟩ := isDynamic_agrees (pairs string)
  obtain ⟨b, hb⟩ : ∃ b, encodeValue (pairs (uint ⟨1, by decide, by decide⟩))
      (.list [.list [.int 0, .int 1], .list [.int 2, .int 3], .list [.int 4, .int 5]]) = .ok b := by
    exact ⟨_, rfl⟩
  have hlength : b.length = 192 := (hstatic rfl).2 _ b hb
  exact ⟨⟨b, hb, hlength⟩, (hdynamic rfl).2⟩

end AbiType

end LedgerAbi
