/-
The spelling of a value does not change its wire form.

* `Spelling` — the ways to spell a scalar of a type, with a constructor for each kind of
  text;
* `Alike` — values of one shape whose scalars spell the same;
* `Respelled` — lists of values that are alike for their types;
* `Spelling.read_eq`, `read_eq_of_alike`, `Respelled.readAll_eq` — what is read of values
  does not depend on their spelling;
* `encodeValues_respelled` — nor does the outcome of encoding.

Design notes: reading is the only step that sees spellings, and it gives the scalar itself
for each of them.  So both outcomes are the same whether values fit their types or not:
nothing is said here about bounds, lengths or the nesting of the type.
-/
import LedgerAbi.Proofs.Codec.Inhabitants
import LedgerAbi.Proofs.Text.Numeral

namespace LedgerAbi

/-! ### Scalars -/

namespace AbiType

/-- The types of integers, with a sign or without. -/
def IsInteger (t : AbiType) : Prop := ∃ w, t = uint w ∨ t = int w

/-- The types of bytes, of any length or of a fixed one. -/
def IsBinary (t : AbiType) : Prop := t = bytes ∨ ∃ w, t = fixedBytes w

end AbiType

/-- The ways to spell a scalar of a type: as itself, or as one of its texts. -/
inductive Spelling : AbiType → Value → Value → Prop where
  | itself {leaf : AbiType} (v : Value) : Spelling leaf v v
  | address {a : Address} {t : Text} (h : Hex.Spells t a.bytes) :
      Spelling .address (.bytes a.bytes) (.text t)
  | digits {leaf : AbiType} (hleaf : leaf.IsBinary) {b : Bytes} {t : Text} (h : Hex.Spells t b) :
      Spelling leaf (.bytes b) (.text t)
  | decimal {leaf : AbiType} (hleaf : leaf.IsInteger) {i : Int} (h : i.natAbs < 10 ^ digitLimit) :
      Spelling leaf (.int i) (.text (Text.ofInt i))
  | hexadecimal {leaf : AbiType} (hleaf : leaf.IsInteger) {mark digits : Text} {n : Nat}
      (hmark : Text.IsMark mark) (h : digits.toAsciiLower = Text.hexadecimalOfNat n) :
      Spelling leaf (.int n) (.text (mark ++ digits))
  | truth {b : Bool} {t : Text} (h : t.toAsciiLower = if b then "true" else "false") :
      Spelling .bool (.bool b) (.text t)

namespace Spelling

variable {leaf : AbiType}

/-- A text that is read as a scalar is read is a spelling of it. -/
theorem read_text {raw : Value} (hraw : ∀ items, raw ≠ .list items) {t : Text}
    (h : Argument.scalar leaf (.text t) = Argument.scalar leaf raw) :
    Argument.read leaf (.text t) = Argument.read leaf raw := by
  have htext : ∀ items, Value.text t ≠ .list items := by simp
  rw [Argument.read_of_not_list htext, Argument.read_of_not_list hraw, h]

theorem read_address {a : Address} {t : Text} (h : Hex.Spells t a.bytes) :
    Argument.read .address (.text t) = Argument.read .address (.bytes a.bytes) := by
  have hscalar {v : Value} (hv : v.SpellsAddress a) : Argument.scalar .address v = .ok (.bytes a.bytes) :=
    Argument.scalar_address_eq_ok_iff.mpr ⟨a, hv, rfl⟩
  refine read_text (by simp) ?_
  rw [hscalar (Value.spellsAddress_text h), hscalar (Or.inl rfl)]

theorem read_digits (hleaf : leaf.IsBinary) {b : Bytes} {t : Text} (h : Hex.Spells t b) :
    Argument.read leaf (.text t) = Argument.read leaf (.bytes b) := by
  have hbytes : Argument.rawBytes (.text t) = Argument.rawBytes (.bytes b) :=
    Argument.rawBytes_eq_ok_iff.mpr ⟨b, Or.inr ⟨t, rfl, Hex.read?_of_spells h⟩, rfl⟩
  refine read_text (by simp) ?_
  rcases hleaf with rfl | ⟨w, rfl⟩
  · exact hbytes
  · exact hbytes

theorem read_numeral (hleaf : leaf.IsInteger) {t : Text} {i : Int} (h : t.IsNumeral i) :
    Argument.read leaf (.text t) = Argument.read leaf (.int i) := by
  have hinteger : Argument.integer (.text t) = Argument.integer (.int i) :=
    Argument.integer_eq_ok_iff.mpr ⟨i, Or.inr ⟨t, rfl, Text.integer?_eq_some_iff.mpr h⟩, rfl⟩
  refine read_text (by simp) ?_
  obtain ⟨w, rfl | rfl⟩ := hleaf
  · exact hinteger
  · exact hinteger

theorem read_truth {b : Bool} {t : Text} (h : t.toAsciiLower = if b then "true" else "false") :
    Argument.read .bool (.text t) = Argument.read .bool (.bool b) :=
  read_text (by simp) (congrArg Except.ok (Argument.boolean_eq_bool_iff.mpr (Or.inr ⟨t, rfl, h⟩)))

/-- However a scalar is spelled, it is read as it would be itself. -/
theorem read_eq {raw v : Value} (h : Spelling leaf raw v) :
    Argument.read leaf v = Argument.read leaf raw := by
  cases h with
  | itself => rfl
  | address h => exact read_address h
  | digits hleaf h => exact read_digits hleaf h
  | decimal hleaf h => exact read_numeral hleaf (Text.isNumeral_ofInt h)
  | hexadecimal hleaf hmark h => exact read_numeral hleaf (Text.isNumeral_mark_append hmark h)
  | truth h => exact read_truth h

end Spelling

/-! ### Values of one shape -/

mutual

/-- Values of one shape whose scalars spell the same for a scalar type. -/
inductive Alike (leaf : AbiType) : Value → Value → Prop where
  | scalar {raw v w : Value} (hv : Spelling leaf raw v) (hw : Spelling leaf raw w) : Alike leaf v w
  | list {vs ws : List Value} (h : AlikeItems leaf vs ws) : Alike leaf (.list vs) (.list ws)

inductive AlikeItems (leaf : AbiType) : List Value → List Value → Prop where
  | nil : AlikeItems leaf [] []
  | cons {v w : Value} {vs ws : List Value} (h : Alike leaf v w) (rest : AlikeItems leaf vs ws) :
      AlikeItems leaf (v :: vs) (w :: ws)

end

/-- Two lists of as many values, which are alike as far as there are types. -/
inductive Respelled : List AbiType → List Value → List Value → Prop where
  | nil {types : List AbiType} : Respelled types [] []
  | cons {t : AbiType} {types : List AbiType} {v w : Value} {vs ws : List Value}
      (h : Alike t.leaf v w) (rest : Respelled types vs ws) : Respelled (t :: types) (v :: vs) (w :: ws)
  | surplus {v w : Value} {vs ws : List Value} (rest : Respelled [] vs ws) :
      Respelled [] (v :: vs) (w :: ws)

mutual

/-- What is read of a value does not depend on its spelling. -/
theorem read_eq_of_alike {leaf : AbiType} {v w : Value} (h : Alike leaf v w) :
    Argument.read leaf v = Argument.read leaf w := by
  cases h with
  | scalar hv hw => rw [hv.read_eq, hw.read_eq]
  | list h => rw [Argument.read, Argument.read, readItems_eq_of_alikeItems h]

theorem readItems_eq_of_alikeItems {leaf : AbiType} {vs ws : List Value}
    (h : AlikeItems leaf vs ws) : Argument.readItems leaf vs = Argument.readItems leaf ws := by
  cases h with
  | nil => rfl
  | cons h rest =>
    rw [Argument.readItems, Argument.readItems, read_eq_of_alike h, readItems_eq_of_alikeItems rest]

end

namespace Respelled

variable {types : List AbiType} {vs ws : List Value}

theorem length_eq (h : Respelled types vs ws) : vs.length = ws.length := by
  induction h with
  | nil => rfl
  | cons _ _ ih => exact congrArg Nat.succ ih
  | surplus _ ih => exact congrArg Nat.succ ih

theorem readAll_eq (h : Respelled types vs ws) :
    Argument.readAll types vs = Argument.readAll types ws := by
  induction h with
  | nil => rfl
  | cons h _ ih => rw [Argument.readAll, Argument.readAll, read_eq_of_alike h, ih]
  | surplus _ _ => rfl

end Respelled

/-- **The spelling of values does not change their wire form**, nor the failure if there is none. -/
theorem encodeValues_respelled {types : List AbiType} {vs ws : List Value}
    (h : Respelled types vs ws) : encodeValues types vs = encodeValues types ws := by
  rw [encodeValues, encodeValues, h.length_eq, h.readAll_eq]

/-- Numbers of a nested array in decimal and hexadecimal, digits in two letter cases, and a word for
truth. -/
theorem encodeValues_respelled_mixed :
    encodeValues
        [.array (.fixedArray (.int ⟨1, by decide, by decide⟩) ⟨2, by decide⟩), .bytes, .bool]
        [.list [.list [.int (-1), .int 31]], .bytes [0xAB], .bool true] =
      encodeValues
        [.array (.fixedArray (.int ⟨1, by decide, by decide⟩) ⟨2, by decide⟩), .bytes, .bool]
        [.list [.list [.text "-1", .text "0X1f"]], .text "0xAb", .text "True"] := by
  have hminus : Spelling (.int ⟨1, by decide, by decide⟩) (.int (-1)) (.text (Text.ofInt (-1))) :=
    .decimal ⟨_, Or.inr rfl⟩ (Nat.one_lt_pow (by decide) (by decide))
  have hmark : Spelling (.int ⟨1, by decide, by decide⟩) (.int 31) (.text ("0X" ++ "1f")) :=
    .hexadecimal ⟨_, Or.inr rfl⟩ (List.mem_cons_of_mem _ List.mem_cons_self) (by decide)
  have hbytes : Spelling .bytes (.bytes [0xAB]) (.text "0xAb") :=
    .digits (Or.inl rfl) ⟨"0x", by decide, "Ab", rfl, by decide⟩
  exact encodeValues_respelled
    (.cons (.list (.cons (.list (.cons (.scalar (.itself _) hminus)
      (.cons (.scalar (.itself _) hmark) .nil))) .nil))
    (.cons (.scalar (.itself _) hbytes) (.cons (.scalar (.itself _) (.truth (by decide))) .nil)))

end LedgerAbi
