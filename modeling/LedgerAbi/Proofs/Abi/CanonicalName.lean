/-
The canonical name of a type is read as the type.

* `BasicSyntax.text` — the text of a base with its size and its dimensions;
* `TypeSyntax.parse?_text` — the grammar reads this text back;
* `AbiType.basic` — the base, size and dimensions of a type, which are those of its
  canonical name;
* `AbiType.ofText_canonical` — a type that some text names is named by its canonical
  name as well, so whoever is given canonical names gets the types;
* `AbiType.canonical_identifies` — equal names are names of one type, and nothing that
  parts or encloses the types of a signature is part of a name.

Design notes: a name is read from the left, base, size and then one dimension after the
other, while a type is built from the inside.  So `AbiType.basic` puts each dimension at the
end of the list, and `BasicSyntax.eq_basic_of_type?` says that nothing else is read as the
type.  The one bound on the way is the length of numbers: an array length with too many
digits is not read, so a type that has such a length has no name.
-/
import LedgerAbi.Abi.TypeText
import LedgerAbi.Proofs.Text.Numeral

/-- A list is split after the items of a class if the next item is not of the class. -/
theorem List.span_append_of_pos {α : Type} {p : α → Bool} {xs ys : List α}
    (hxs : ∀ x ∈ xs, p x = true) (hys : ∀ y ∈ ys.head?, p y = false) :
    (xs ++ ys).span p = (xs, ys) := by
  rw [List.span_eq_takeWhile_dropWhile, List.takeWhile_append_of_pos hxs,
    List.dropWhile_append_of_pos hxs]
  cases ys with
  | nil => rw [List.takeWhile_nil, List.dropWhile_nil, List.append_nil]
  | cons y ys =>
    have hy : ¬ p y = true := by
      rw [hys y rfl]
      decide
    rw [List.takeWhile_cons_of_neg hy, List.dropWhile_cons_of_neg hy, List.append_nil]

namespace LedgerAbi

/-! ### Texts of the grammar -/

/-- The text of a size. -/
def Suffix.text : Suffix → Text
  | one n => Text.ofNat n
  | two m n => Text.ofNat m ++ .char 'x' :: Text.ofNat n

/-- No number of the size is zero. -/
def Suffix.IsPositive : Suffix → Prop
  | one n => 0 < n
  | two m n => 0 < m ∧ 0 < n

/-- A dimension in brackets. -/
def dimensionText : Option Length → Text
  | none => [.char '[', .char ']']
  | some n => .char '[' :: (Text.ofNat n.items ++ [.char ']'])

namespace BasicSyntax

/-- The text of a base with its size and its dimensions. -/
def text (b : BasicSyntax) : Text :=
  b.base ++ (b.suffix.elim [] Suffix.text ++ b.dimensions.flatMap dimensionText)

/-- The base is made of letters, and no number of the size is zero. -/
structure IsWritable (b : BasicSyntax) : Prop where
  base_ne_nil : b.base ≠ []
  base : ∀ c ∈ b.base, c.isAsciiLetter = true
  suffix : ∀ s ∈ b.suffix, s.IsPositive

end BasicSyntax

namespace TypeSyntax

/-- A positive number is read up to the first code point that is no digit. -/
theorem number?_ofNat {n : Nat} (hn : 0 < n) {rest : Text}
    (hrest : ∀ c ∈ rest.head?, c.isAsciiDigit = false) :
    number? (Text.ofNat n ++ rest) = some (⟨n, hn⟩, rest) := by
  rw [number?, List.span_append_of_pos (fun _ => Text.isAsciiDigit_of_mem_ofNat) hrest]
  simp only [Text.head?_ofNat hn, if_false, Text.foldl_ofNat, dif_pos hn]

theorem number?_eq_none {t : Text} (h : ∀ c ∈ t.head?, c.isAsciiDigit = false) :
    number? t = none := by
  have hspan := List.span_append_of_pos (p := CodePoint.isAsciiDigit) (List.forall_mem_nil _) h
  rw [List.nil_append] at hspan
  rw [number?, hspan]
  rfl

/-- What begins with a bracket, if it is not empty, does not begin with anything else. -/
theorem head?_of_bracket {p : CodePoint → Bool} (hp : p (.char '[') = false) {t : Text}
    (h : ∀ c ∈ t.head?, c = .char '[') : ∀ c ∈ t.head?, p c = false := by
  intro c hc
  rw [h c hc, hp]

theorem dimension?_text (d : Option Length) (rest : Text) :
    dimension? (dimensionText d ++ rest) = some (d, rest) := by
  cases d with
  | none => rfl
  | some n =>
    have hread :
        number? (Text.ofNat n.items ++ .char ']' :: rest) = some (n, .char ']' :: rest) := by
      refine number?_ofNat n.pos fun c hc => ?_
      cases hc
      decide
    obtain ⟨c, digits, hdigits⟩ := List.exists_cons_of_ne_nil (Text.ofNat_ne_nil n.items)
    have hc : c ≠ .char ']' := by
      rintro rfl
      have hdigit : CodePoint.isAsciiDigit (.char ']') = true :=
        Text.isAsciiDigit_of_mem_ofNat (n := n.items) (by rw [hdigits]; exact List.mem_cons_self)
      cases hdigit
    have htext :
        dimensionText (some n) ++ rest = .char '[' :: c :: (digits ++ .char ']' :: rest) := by
      simp [dimensionText, hdigits]
    rw [hdigits, List.cons_append] at hread
    rw [htext, dimension?]
    simp only [ne_eq, not_true_eq_false, if_false, hc, hread, if_true]

theorem head?_dimensions (ds : List (Option Length)) :
    ∀ c ∈ (ds.flatMap dimensionText).head?, c = .char '[' := by
  rcases ds with _ | ⟨_ | n, ds⟩
  · exact nofun
  · rintro c ⟨⟩
    rfl
  · rintro c ⟨⟩
    rfl

theorem length_le_dimensions (ds : List (Option Length)) :
    ds.length ≤ (ds.flatMap dimensionText).length := by
  induction ds with
  | nil => exact Nat.le_refl 0
  | cons d ds ih =>
    have hpos : 0 < (dimensionText d).length := by
      cases d <;> exact Nat.succ_pos _
    rw [List.flatMap_cons, List.length_append, List.length_cons]
    omega

theorem dimensionsAt_text {ds : List (Option Length)} {fuel : Nat} (hfuel : ds.length ≤ fuel) :
    dimensionsAt fuel (ds.flatMap dimensionText) = (ds, []) := by
  induction ds generalizing fuel with
  | nil => cases fuel <;> rfl
  | cons d ds ih =>
    obtain ⟨fuel, rfl⟩ := Nat.exists_eq_add_of_lt (Nat.lt_of_lt_of_le (Nat.zero_lt_succ _) hfuel)
    rw [List.flatMap_cons, Nat.zero_add, dimensionsAt, dimension?_text]
    simp only [ih (Nat.le_of_succ_le_succ (by simpa using hfuel))]

/-- A size is read if it stands before dimensions or at the end. -/
theorem suffixAt_text {s : Option Suffix} (hs : ∀ suffix ∈ s, suffix.IsPositive) {rest : Text}
    (hrest : ∀ c ∈ rest.head?, c = .char '[') :
    suffixAt (s.elim [] Suffix.text ++ rest) = (s, rest) := by
  have hdigit := head?_of_bracket (p := CodePoint.isAsciiDigit) (by decide) hrest
  rcases s with _ | m | ⟨m, n⟩
  · rw [Option.elim_none, List.nil_append, suffixAt, number?_eq_none hdigit]
  · rw [Option.elim_some, Suffix.text, suffixAt, number?_ofNat (hs _ rfl) hdigit]
    cases rest with
    | nil => rfl
    | cons c rest =>
      cases hrest c rfl
      rfl
  · obtain ⟨hm, hn⟩ := hs _ rfl
    have htext : Suffix.text (.two m n) ++ rest =
        Text.ofNat m ++ .char 'x' :: (Text.ofNat n ++ rest) := by
      rw [Suffix.text, List.append_assoc, List.cons_append]
    have hx :
        ∀ c ∈ (CodePoint.char 'x' :: (Text.ofNat n ++ rest)).head?, c.isAsciiDigit = false := by
      rintro c ⟨⟩
      decide
    rw [Option.elim_some, htext, suffixAt, number?_ofNat hm hx]
    simp only [if_true, number?_ofNat hn hdigit]

theorem basic?_text {b : BasicSyntax} (hb : b.IsWritable) : basic? b.text = some (b, []) := by
  have hdims := head?_dimensions b.dimensions
  -- neither a digit nor a bracket is a letter, so the base ends where the size begins
  have hrest : ∀ c ∈ (b.suffix.elim [] Suffix.text ++ b.dimensions.flatMap dimensionText).head?,
      c.isAsciiLetter = false := by
    have hnumber (n : Nat) (rest : Text) : ∀ c ∈ (Text.ofNat n ++ rest).head?,
        c.isAsciiLetter = false := by
      intro c hc
      rw [List.head?_append_of_ne_nil _ (Text.ofNat_ne_nil n)] at hc
      exact Text.isAsciiLetter_of_isAsciiDigit
        (Text.isAsciiDigit_of_mem_ofNat (List.mem_of_mem_head? hc))
    rcases b.suffix with _ | m | ⟨m, n⟩
    · exact head?_of_bracket (by decide) hdims
    · exact hnumber m _
    · rw [Option.elim_some, Suffix.text, List.append_assoc]
      exact hnumber m _
  rw [basic?, BasicSyntax.text, List.span_append_of_pos hb.base hrest]
  simp only [hb.base_ne_nil, if_false, suffixAt_text hb.suffix hdims,
    dimensionsAt_text (length_le_dimensions b.dimensions)]

/-- The grammar reads the text of a basic type back. -/
theorem parse?_text {b : BasicSyntax} (hb : b.IsWritable) : parse? b.text = some (basic b) := by
  obtain ⟨c, base, hbase⟩ := List.exists_cons_of_ne_nil hb.base_ne_nil
  have hc : c ≠ .char '(' := by
    rintro rfl
    have hletter := hb.base (.char '(') (by rw [hbase]; exact List.mem_cons_self)
    cases hletter
  obtain ⟨rest, htext⟩ : ∃ rest, b.text = c :: rest := by
    rw [BasicSyntax.text, hbase]
    exact ⟨_, rfl⟩
  have hread := basic?_text hb
  rw [htext] at hread ⊢
  rw [parse?, List.length_cons, Nat.mul_succ, typeAt]
  simp only [hc, if_false, hread, Option.map_some]

end TypeSyntax

/-! ### Types and their names -/

namespace BasicSyntax

/-- An array, of one dimension more. -/
def inArray (b : BasicSyntax) (d : Option Length) : BasicSyntax :=
  { b with dimensions := b.dimensions ++ [d] }

theorem text_inArray (b : BasicSyntax) (d : Option Length) :
    (b.inArray d).text = b.text ++ dimensionText d := by
  simp only [text, inArray, List.flatMap_append, List.flatMap_singleton, List.append_assoc]

theorem type?_inArray (b : BasicSyntax) (d : Option Length) :
    (b.inArray d).type? = b.type?.map fun t => arrayOf t d := by
  simp only [type?, inArray, List.foldl_append, Option.map_map]
  rfl

theorem expanded_inArray (b : BasicSyntax) (d : Option Length) :
    (b.inArray d).expanded = b.expanded.inArray d := by
  simp only [expanded, inArray]
  split <;> rfl

/-- Expansion leaves the dimensions as they are. -/
theorem dimensions_expanded (b : BasicSyntax) : b.expanded.dimensions = b.dimensions := by
  rw [expanded]
  split <;> rfl

theorem mem_numbers_expanded {b : BasicSyntax} {n : Nat} (h : n ∈ b.numbers) :
    n ∈ b.expanded.numbers := by
  rw [expanded]
  split
  · next hsuffix _ =>
    simp only [numbers, hsuffix, List.append_nil] at h
    exact List.mem_append_left _ h
  · exact h

end BasicSyntax

theorem Width.isBitSize_bits (w : Width) : BasicSyntax.isBitSize w.bits = true := by
  have hpos := w.pos
  have hle := w.le
  rw [BasicSyntax.isBitSize, bits, Bool.and_eq_true, Bool.and_eq_true, beq_iff_eq]
  exact ⟨⟨decide_eq_true (by omega), decide_eq_true (by omega)⟩, by omega⟩

theorem Width.ofBits?_bits (w : Width) : ofBits? w.bits = some w := by
  have hdiv : 8 * w.bytes / 8 = w.bytes := Nat.mul_div_cancel_left _ (by decide)
  rw [ofBits?, bits, if_pos (Nat.mul_mod_right 8 _), hdiv]
  exact dif_pos ⟨w.pos, w.le⟩

theorem Width.bytes_of_ofBytes? {n : Nat} {w : Width} (h : ofBytes? n = some w) : w.bytes = n := by
  rw [ofBytes?] at h
  split at h
  · cases h
    rfl
  · cases h

theorem Width.bits_of_ofBits? {n : Nat} {w : Width} (h : ofBits? n = some w) : w.bits = n := by
  rw [ofBits?] at h
  split at h
  · have hbytes := bytes_of_ofBytes? h
    rw [bits]
    omega
  · cases h

namespace AbiType

/-- The base of a type with its size and its dimensions, the outermost of which is the last. -/
def basic : AbiType → BasicSyntax
  | address => ⟨"address", none, []⟩
  | bool => ⟨"bool", none, []⟩
  | string => ⟨"string", none, []⟩
  | bytes => ⟨"bytes", none, []⟩
  | fixedBytes w => ⟨"bytes", some (.one w.bytes), []⟩
  | uint w => ⟨"uint", some (.one w.bits), []⟩
  | int w => ⟨"int", some (.one w.bits), []⟩
  | array e => (basic e).inArray none
  | fixedArray e n => (basic e).inArray (some n)

theorem text_basic (t : AbiType) : t.basic.text = t.canonical := by
  induction t with
  | array e ih =>
    rw [basic, BasicSyntax.text_inArray, ih]
    rfl
  | fixedArray e n ih =>
    have hopen : ("[" : Text) = [.char '['] := rfl
    have hclose : ("]" : Text) = [.char ']'] := rfl
    rw [basic, BasicSyntax.text_inArray, ih, dimensionText, canonical, hopen, hclose]
    simp only [List.append_assoc, List.cons_append, List.nil_append]
  | fixedBytes w => simp [basic, BasicSyntax.text, Suffix.text, canonical]
  | uint w => simp [basic, BasicSyntax.text, Suffix.text, canonical]
  | int w => simp [basic, BasicSyntax.text, Suffix.text, canonical]
  | _ => rfl

/-- A base of letters is writable with any positive number as its size. -/
theorem isWritable_sized {base : Text} (hne : base ≠ [])
    (hbase : ∀ c ∈ base, c.isAsciiLetter = true) {n : Nat} (hn : 0 < n) :
    (BasicSyntax.mk base (some (.one n)) []).IsWritable := by
  refine ⟨hne, hbase, ?_⟩
  rintro s ⟨⟩
  exact hn

theorem isWritable_basic (t : AbiType) : t.basic.IsWritable := by
  induction t with
  | array e ih => exact ⟨ih.base_ne_nil, ih.base, ih.suffix⟩
  | fixedArray e n ih => exact ⟨ih.base_ne_nil, ih.base, ih.suffix⟩
  | fixedBytes w => exact isWritable_sized (by decide) (by decide) w.pos
  | uint w => exact isWritable_sized (by decide) (by decide) (Nat.mul_pos (by decide) w.pos)
  | int w => exact isWritable_sized (by decide) (by decide) (Nat.mul_pos (by decide) w.pos)
  | _ => exact ⟨by decide, by decide, nofun⟩

theorem type?_basic (t : AbiType) : t.basic.type? = some t := by
  induction t with
  | array e ih => rw [basic, BasicSyntax.type?_inArray, ih]; rfl
  | fixedArray e n ih => rw [basic, BasicSyntax.type?_inArray, ih]; rfl
  | fixedBytes w =>
    have hw : Width.ofBytes? w.bytes = some w := dif_pos ⟨w.pos, w.le⟩
    show Option.map _ ((Width.ofBytes? w.bytes).map fixedBytes) = _
    rw [hw]
    rfl
  | uint w =>
    show Option.map _ ((Width.ofBits? w.bits).map uint) = _
    rw [w.ofBits?_bits]
    rfl
  | int w =>
    show Option.map _ ((Width.ofBits? w.bits).map int) = _
    rw [w.ofBits?_bits]
    rfl
  | _ => rfl

theorem basic_foldl (t : AbiType) (ds : List (Option Length)) :
    (ds.foldl BasicSyntax.arrayOf t).basic =
      { t.basic with dimensions := t.basic.dimensions ++ ds } := by
  induction ds generalizing t with
  | nil => rw [List.foldl_nil, List.append_nil]
  | cons d ds ih =>
    have hstep : (BasicSyntax.arrayOf t d).basic = t.basic.inArray d := by
      cases d <;> rfl
    rw [List.foldl_cons, ih, hstep, BasicSyntax.inArray, List.append_assoc, List.singleton_append]

theorem basic_of_scalar? {b : BasicSyntax} {t : AbiType} (h : b.scalar? = some t) :
    t.basic = { b with dimensions := [] } := by
  obtain ⟨base, suffix, ds⟩ := b
  unfold BasicSyntax.scalar? at h
  split at h
  · next hsuffix =>
    cases hsuffix
    dsimp only at h
    split at h
    · next hbase => cases h; cases hbase; rfl
    split at h
    · next hbase => cases h; cases hbase; rfl
    split at h
    · next hbase => cases h; cases hbase; rfl
    split at h
    · next hbase => cases h; cases hbase; rfl
    · cases h
  · next n hsuffix =>
    cases hsuffix
    dsimp only at h
    split at h
    · next hbase =>
      obtain ⟨w, hw, rfl⟩ := Option.map_eq_some_iff.mp h
      cases hbase
      rw [basic, Width.bytes_of_ofBytes? hw]
    split at h
    · next hbase =>
      obtain ⟨w, hw, rfl⟩ := Option.map_eq_some_iff.mp h
      cases hbase
      rw [basic, Width.bits_of_ofBits? hw]
    split at h
    · next hbase =>
      obtain ⟨w, hw, rfl⟩ := Option.map_eq_some_iff.mp h
      cases hbase
      rw [basic, Width.bits_of_ofBits? hw]
    · cases h
  · cases h

/-- Nothing but its own base, size and dimensions is read as a type. -/
theorem eq_basic_of_type? {b : BasicSyntax} {t : AbiType} (h : b.type? = some t) : b = t.basic := by
  obtain ⟨scalar, hscalar, rfl⟩ := Option.map_eq_some_iff.mp h
  rw [basic_foldl, basic_of_scalar? hscalar, List.nil_append]

/-- The base of a type has a size if it needs one, so there is nothing to expand. -/
theorem expanded_basic (t : AbiType) : t.basic.expanded = t.basic := by
  induction t with
  | array e ih => rw [basic, BasicSyntax.expanded_inArray, ih]
  | fixedArray e n ih => rw [basic, BasicSyntax.expanded_inArray, ih]
  | _ => rfl

theorem isValid_basic (t : AbiType) : t.basic.isValid = true := by
  induction t with
  | array e ih => exact ih
  | fixedArray e n ih => exact ih
  | fixedBytes w => exact decide_eq_true w.le
  | uint w => exact w.isBitSize_bits
  | int w => exact w.isBitSize_bits
  | _ => rfl

/-! ### Numbers with too many digits -/

/-- No array length of the type has too many digits. -/
def HasReadableLengths (t : AbiType) : Prop :=
  ∀ n : Length, some n ∈ t.basic.dimensions → exceedsDigitLimit n.items = false

theorem lt_of_suffix_basic {t : AbiType} {s : Suffix} (h : t.basic.suffix = some s) :
    ∃ n, s = .one n ∧ n < 10 ^ 3 := by
  induction t with
  | array e ih => exact ih h
  | fixedArray e n ih => exact ih h
  | fixedBytes w => cases h; exact ⟨_, rfl, by have := w.le; omega⟩
  | uint w => cases h; exact ⟨_, rfl, by have := w.le; rw [Width.bits]; omega⟩
  | int w => cases h; exact ⟨_, rfl, by have := w.le; rw [Width.bits]; omega⟩
  | _ => cases h

theorem numbers_basic {t : AbiType} (h : t.HasReadableLengths) :
    (t.basic.numbers.any fun n => exceedsDigitLimit n) = false := by
  rw [List.any_eq_false]
  intro n hn
  rw [Bool.not_eq_true]
  rcases List.mem_append.mp hn with hn | hn
  · obtain ⟨d, hd, hn⟩ := List.mem_filterMap.mp hn
    obtain ⟨length, rfl, rfl⟩ := Option.map_eq_some_iff.mp hn
    exact h length hd
  · cases hsuffix : t.basic.suffix with
    | none => rw [hsuffix] at hn; cases hn
    | some s =>
      obtain ⟨m, rfl, hm⟩ := lt_of_suffix_basic hsuffix
      rw [hsuffix] at hn
      rw [List.mem_singleton.mp hn]
      exact exceedsDigitLimit_eq_false (by omega)

/-- A type that some text names has no array length with too many digits. -/
theorem hasReadableLengths_of_ofText {s : Text} {t : AbiType} (h : ofText s = .ok t) :
    t.HasReadableLengths := by
  unfold ofText at h
  split at h
  · split at h <;> cases h
  split at h
  · cases h
  next hnumbers =>
  split at h
  · cases h
  split at h
  · cases h
  next b _ _ =>
  split at h
  · next type htype =>
    cases h
    intro n hn
    rw [← eq_basic_of_type? htype, BasicSyntax.dimensions_expanded] at hn
    simp only [List.any_eq_true, not_exists, not_and, Bool.not_eq_true] at hnumbers
    exact hnumbers n.items (List.mem_append_left _ (List.mem_filterMap.mpr ⟨_, hn, rfl⟩))
  · cases h

/-- A type is named by every text that expands to its base, size and dimensions, unless an array
length has too many digits. -/
theorem ofText_text {b : BasicSyntax} (hb : b.IsWritable) {t : AbiType} (ht : b.expanded = t.basic)
    (h : t.HasReadableLengths) : ofText b.text = .ok t := by
  have hnumbers : ((TypeSyntax.basic b).numbers.any fun n => exceedsDigitLimit n) = false := by
    have hexpanded := numbers_basic h
    rw [List.any_eq_false] at hexpanded ⊢
    intro n hn
    refine hexpanded n ?_
    rw [← ht]
    exact BasicSyntax.mem_numbers_expanded hn
  have hvalid : (TypeSyntax.basic b).isValid = true := by
    rw [TypeSyntax.isValid, ht, isValid_basic]
  rw [ofText, TypeSyntax.parse?_text hb]
  simp only [hnumbers, hvalid, ht, type?_basic, Bool.false_eq_true, if_false, Bool.not_true]

/-- **The canonical name of a type names it**, unless an array length has too many digits. -/
theorem ofText_canonical {t : AbiType} (h : t.HasReadableLengths) : ofText t.canonical = .ok t := by
  rw [← text_basic]
  exact ofText_text t.isWritable_basic t.expanded_basic h

/-! ### Names apart -/

/-- True if type texts may hold the code point. -/
def isTypeCodePoint (c : CodePoint) : Bool :=
  c.isAsciiLetter || c.isAsciiDigit || c == .char '[' || c == .char ']'

theorem isTypeCodePoint_of_letter {c : CodePoint} (h : c.isAsciiLetter = true) :
    isTypeCodePoint c = true := by
  rw [isTypeCodePoint, h, Bool.true_or, Bool.true_or, Bool.true_or]

theorem isTypeCodePoint_of_mem_ofNat {n : Nat} {c : CodePoint} (h : c ∈ Text.ofNat n) :
    isTypeCodePoint c = true := by
  rw [isTypeCodePoint, Text.isAsciiDigit_of_mem_ofNat h, Bool.or_true, Bool.true_or, Bool.true_or]

theorem isTypeCodePoint_of_mem_text {b : BasicSyntax} (hb : b.IsWritable) {c : CodePoint}
    (h : c ∈ b.text) : isTypeCodePoint c = true := by
  rw [BasicSyntax.text, List.mem_append, List.mem_append] at h
  rcases h with hbase | hsuffix | hdims
  · exact isTypeCodePoint_of_letter (hb.base c hbase)
  · rcases hs : b.suffix with _ | n | ⟨m, n⟩
    · rw [hs] at hsuffix
      cases hsuffix
    · rw [hs] at hsuffix
      exact isTypeCodePoint_of_mem_ofNat hsuffix
    · rw [hs, Option.elim_some, Suffix.text, List.mem_append, List.mem_cons] at hsuffix
      rcases hsuffix with hm | rfl | hn
      · exact isTypeCodePoint_of_mem_ofNat hm
      · decide
      · exact isTypeCodePoint_of_mem_ofNat hn
  · obtain ⟨d, -, hd⟩ := List.mem_flatMap.mp hdims
    cases d with
    | none =>
      have hbrackets : ∀ c ∈ dimensionText none, isTypeCodePoint c = true := by decide
      exact hbrackets c hd
    | some n =>
      rw [dimensionText, List.mem_cons, List.mem_append, List.mem_singleton] at hd
      rcases hd with rfl | hn | rfl
      · decide
      · exact isTypeCodePoint_of_mem_ofNat hn
      · decide

theorem canonical_ne_nil (t : AbiType) : t.canonical ≠ [] := by
  rw [← text_basic, BasicSyntax.text]
  exact List.append_ne_nil_of_left_ne_nil t.isWritable_basic.base_ne_nil _

/-- What parts the types of a signature, and what encloses them, is no part of their names. -/
theorem not_mem_canonical (t : AbiType) : ∀ c ∈ (",() " : Text), c ∉ t.canonical := by
  intro c hc hmem
  have houtside : ∀ c ∈ (",() " : Text), isTypeCodePoint c = false := by decide
  rw [← text_basic] at hmem
  have hinside := isTypeCodePoint_of_mem_text t.isWritable_basic hmem
  rw [houtside c hc] at hinside
  cases hinside

/-- The grammar reads the base, size and dimensions of a type from its name, and these are the type. -/
theorem canonical_injective : Function.Injective canonical := by
  intro t u h
  have ht := TypeSyntax.parse?_text t.isWritable_basic
  have hu := TypeSyntax.parse?_text u.isWritable_basic
  rw [text_basic, h, ← text_basic, hu] at ht
  have hbasic : u.basic = t.basic := TypeSyntax.basic.inj (Option.some.inj ht)
  have htype := type?_basic t
  rw [← hbasic, type?_basic] at htype
  exact (Option.some.inj htype).symm

/-- The canonical spelling of a text that names a type. -/
def canonicalText (s : Text) : Except Error Text := (ofText s).map canonical

/-- **The canonical name of a type identifies it**: it names the type itself, so to spell it canonically
changes nothing, and different types have different names. -/
theorem canonical_identifies {s u : Text} {t w : AbiType} (hs : ofText s = .ok t)
    (hu : ofText u = .ok w) :
    ofText t.canonical = .ok t ∧
    canonicalText s = .ok t.canonical ∧ canonicalText t.canonical = .ok t.canonical ∧
    (canonicalText s = canonicalText u ↔ t = w) ∧
    ∀ c ∈ (",() " : Text), c ∉ t.canonical := by
  have hspell {v : Text} {t : AbiType} (hv : ofText v = .ok t) : canonicalText v = .ok t.canonical := by
    rw [canonicalText, hv]
    rfl
  have hname := ofText_canonical (hasReadableLengths_of_ofText hs)
  refine ⟨hname, hspell hs, hspell hname, ?_, not_mem_canonical t⟩
  rw [hspell hs, hspell hu, Except.ok.injEq, canonical_injective.eq_iff]

/-- Lists of pairs of unsigned integers of a whole word. -/
def wordPairs : AbiType := array (fixedArray (uint .word) ⟨2, Nat.two_pos⟩)

/-- Two texts that name the lists of pairs, the second of which is the canonical name. -/
theorem canonical_identifies_pairs :
    ofText "uint[2][]" = .ok wordPairs ∧ ofText "uint256[2][]" = .ok wordPairs ∧
    canonicalText "uint[2][]" = .ok "uint256[2][]" ∧
    canonicalText "uint256[2][]" = .ok "uint256[2][]" ∧
    canonicalText "uint[2][]" = canonicalText "uint256[2][]" := by
  have hlengths : wordPairs.HasReadableLengths := by
    intro n hn
    obtain rfl : n = ⟨2, by decide⟩ := by simpa [wordPairs, basic, BasicSyntax.inArray] using hn
    exact exceedsDigitLimit_eq_false (by decide)
  have hwritable : BasicSyntax.IsWritable ⟨"uint", none, [some ⟨2, by decide⟩, none]⟩ :=
    ⟨by decide, by decide, nofun⟩
  have htext : ("uint[2][]" : Text) =
      BasicSyntax.text ⟨"uint", none, [some ⟨2, by decide⟩, none]⟩ := rfl
  have hcanonical : ("uint256[2][]" : Text) = wordPairs.canonical := rfl
  have halias : ofText "uint[2][]" = .ok wordPairs := by
    rw [htext]
    exact ofText_text hwritable rfl hlengths
  have hname : ofText "uint256[2][]" = .ok wordPairs := by
    rw [hcanonical]
    exact ofText_canonical hlengths
  obtain ⟨-, hspelled, hagain, heq, -⟩ := canonical_identifies halias hname
  exact ⟨halias, hname, hspelled, hagain, heq.mpr rfl⟩

end AbiType

end LedgerAbi
