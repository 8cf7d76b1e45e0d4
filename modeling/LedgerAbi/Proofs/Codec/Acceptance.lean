/-
Which values are written.

* `Value.IsNumeral`, `Value.IsHexadecimal`, `Value.IsAddress`, `Value.IsTruth` — scalars of
  each kind, as themselves or as texts of a grammar;
* `AbiType.Admits` — the values of a type, by recursion on the type;
* `AbiType.admits_iff` — these are the values that the codec makes a datum of;
* `encodeValues_accepts_iff` — a wire form is written for just as many values as there are
  types, each a value of its type.

Design notes: `AbiType.Inhabits` says of a text what its reader makes of it.  Here the
texts are described without their readers: numerals, pairs of digits and addresses each
have a grammar, and the step from the one to the other is made scalar by scalar.
-/
import LedgerAbi.Proofs.Codec.Inhabitants
import LedgerAbi.Proofs.Text.Numeral

namespace LedgerAbi

/-! ### Scalars -/

namespace Value

/-- An integer, or a numeral of it. A boolean is no integer. -/
def IsNumeral (v : Value) (i : Int) : Prop := v = .int i ∨ ∃ t : Text, v = .text t ∧ t.IsNumeral i

/-- Raw bytes, or pairs of digits that write them, behind a mark or without one. -/
def IsHexadecimal (v : Value) (b : Bytes) : Prop :=
  v = .bytes b ∨ ∃ mark ∈ [([] : Text), "0x", "0X"], ∃ digits, v = .text (mark ++ digits) ∧
    Hex.Pairs digits b

/-- Twenty raw bytes, or forty digits behind a mark or without one. -/
def IsAddress (v : Value) : Prop :=
  (∃ b, v = .bytes b ∧ b.length = 20) ∨
    ∃ mark ∈ [([] : Text), "0x", "0X"], ∃ digits, v = .text (mark ++ digits) ∧
      digits.length = 40 ∧ Hex.IsDigits digits

/-- A boolean, or a word for truth in any letter case. -/
def IsTruth (v : Value) : Prop :=
  (∃ b, v = .bool b) ∨ ∃ t : Text, v = .text t ∧ t.toAsciiLower ∈ [("true" : Text), "false"]

theorem isNumeral_iff {v : Value} {i : Int} : v.IsNumeral i ↔ v.SpellsInteger i :=
  or_congr_right (exists_congr fun _ => and_congr_right fun _ => Text.integer?_eq_some_iff.symm)

theorem isHexadecimal_iff {v : Value} {b : Bytes} : v.IsHexadecimal b ↔ v.SpellsBytes b := by
  refine or_congr_right ?_
  constructor
  · rintro ⟨mark, hmark, digits, rfl, hdigits⟩
    exact ⟨_, rfl, Hex.read?_eq_some_iff.mpr ⟨mark, hmark, digits, rfl, hdigits⟩⟩
  · rintro ⟨t, rfl, ht⟩
    obtain ⟨mark, hmark, digits, rfl, hdigits⟩ := Hex.read?_eq_some_iff.mp ht
    exact ⟨mark, hmark, digits, rfl, hdigits⟩

theorem isAddress_iff {v : Value} : v.IsAddress ↔ ∃ a, v.SpellsAddress a := by
  constructor
  · rintro (⟨b, rfl, hb⟩ | ⟨mark, hmark, digits, rfl, hlength, hdigits⟩)
    · exact ⟨⟨b, hb⟩, Or.inl rfl⟩
    · have haddress := Hex.isAddress_iff.mpr ⟨mark, hmark, digits, rfl, hlength, hdigits⟩
      have hpairs : digits.length = 2 * 20 := hlength
      obtain ⟨b, hread, hb⟩ := Hex.exists_toBytes?_of_isDigits hdigits hpairs
      refine ⟨⟨b, hb⟩, Or.inr ⟨_, rfl, haddress, ?_⟩⟩
      rw [Hex.read?, Hex.stripMark_append hmark (Hex.hasHexMark_of_isDigits hdigits), hread]
  · rintro ⟨a, rfl | ⟨t, rfl, ht, -⟩⟩
    · exact Or.inl ⟨_, rfl, a.length_eq⟩
    · obtain ⟨mark, hmark, digits, rfl, hdigits⟩ := Hex.isAddress_iff.mp ht
      exact Or.inr ⟨mark, hmark, digits, rfl, hdigits⟩

theorem isTruth_iff {v : Value} : v.IsTruth ↔ ∃ b, v.SpellsTruth b := by
  constructor
  · rintro (⟨b, rfl⟩ | ⟨t, rfl, ht⟩)
    · exact ⟨b, Or.inl rfl⟩
    · simp only [List.mem_cons, List.not_mem_nil, or_false] at ht
      rcases ht with ht | ht
      · exact ⟨true, Or.inr ⟨t, rfl, ht⟩⟩
      · exact ⟨false, Or.inr ⟨t, rfl, ht⟩⟩
  · rintro ⟨b, rfl | ⟨t, rfl, ht⟩⟩
    · exact Or.inl ⟨b, rfl⟩
    · refine Or.inr ⟨t, rfl, ?_⟩
      rw [ht]
      cases b with
      | true => exact List.mem_cons_self
      | false => exact List.mem_cons_of_mem _ List.mem_cons_self

end Value

/-! ### The values of a type -/

namespace AbiType

/-- The values of a type. -/
def Admits : AbiType → Value → Prop
  | address, v => v.IsAddress
  | bool, v => v.IsTruth
  | string, v => ∃ t : Text, v = .text t ∧ ∀ c ∈ t, c.isSurrogate = false
  | bytes, v => ∃ b, v.IsHexadecimal b
  | fixedBytes w, v => ∃ b, v.IsHexadecimal b ∧ b.length ≤ w.bytes
  | uint w, v => ∃ i, v.IsNumeral i ∧ 0 ≤ i ∧ i < (2 : Int) ^ w.bits
  | int w, v => ∃ i, v.IsNumeral i ∧ -(2 ^ (w.bits - 1) : Int) ≤ i ∧ i < (2 ^ (w.bits - 1) : Int)
  | array e, v => ∃ items, v = .list items ∧ ∀ x ∈ items, e.Admits x
  | fixedArray e n, v =>
    ∃ items, v = .list items ∧ items.length = n.items ∧ ∀ x ∈ items, e.Admits x

/-- The values of a type are those that have a datum which can be written. -/
theorem admits_iff {t : AbiType} {v : Value} : t.Admits v ↔ t.Inhabits true v := by
  induction t generalizing v with
  | address => exact Value.isAddress_iff
  | bool => exact Value.isTruth_iff
  | string =>
    refine exists_congr fun t => and_congr_right fun _ => ?_
    rw [Text.isScalar, List.all_eq_true]
    simp only [Bool.not_eq_true', forall_const]
  | bytes => exact exists_congr fun _ => Value.isHexadecimal_iff
  | fixedBytes w => exact exists_congr fun _ => and_congr_left' Value.isHexadecimal_iff
  | uint w => exact exists_congr fun _ => and_congr_left' Value.isNumeral_iff
  | int w => exact exists_congr fun _ => and_congr_left' Value.isNumeral_iff
  | array e ih =>
    exact exists_congr fun _ => and_congr_right fun _ => forall₂_congr fun _ _ => ih
  | fixedArray e n ih =>
    exact exists_congr fun _ => and_congr_right fun _ => and_congr_right fun _ =>
      forall₂_congr fun _ _ => ih

end AbiType

/-- **Just the well typed values are written**: as many as there are types, each a value of its type. -/
theorem encodeValues_accepts_iff {types : List AbiType} {values : List Value} :
    (∃ b, encodeValues types values = .ok b) ↔
      types.length = values.length ∧ ∀ s ∈ types.zip values, s.1.Admits s.2 := by
  rw [exists_encodeValues_iff, List.forall₂_iff_zip]
  refine and_congr_right fun _ => ?_
  constructor
  · rintro h ⟨t, v⟩ hs
    exact AbiType.admits_iff.mpr (h hs)
  · intro h t v hs
    exact AbiType.admits_iff.mp (h (t, v) hs)

end LedgerAbi
