/-
The language of type texts.

* `ScalarName` — the texts without dimensions, and the scalar types that they name;
* `TypeName` — a scalar name with any number of dimensions behind it, each of which
  makes an array of what stands before it;
* `TypeSyntax.parse?_eq_basic_iff` — the grammar reads a base with its size and
  its dimensions from one text only;
* `AbiType.ofText_eq_ok_iff` — just the texts of the language name types.

Design notes: the grammar reads more than the language, and what it has read is then
narrowed down in two steps, by the sizes that bases can have and by the types that there
are.  Neither step is followed here.  What is left in the end expands to the base, size and
dimensions of a type (`BasicSyntax.eq_basic_of_type?`), so the induction on the type only
has to say which syntax expands to them: its own, or one of the aliases.
-/
import LedgerAbi.Proofs.Abi.CanonicalName

namespace LedgerAbi

/-! ### The language -/

/-- The texts that name scalar types. Sizes are written without zeros in front: bytes from 1 to 32, bits
from 8 to 256 in steps of 8. -/
inductive ScalarName : Text → AbiType → Prop where
  | address : ScalarName "address" .address
  | bool : ScalarName "bool" .bool
  | string : ScalarName "string" .string
  | bytes : ScalarName "bytes" .bytes
  | byte : ScalarName "byte" (.fixedBytes ⟨1, by decide, by decide⟩)
  | function : ScalarName "function" (.fixedBytes ⟨24, by decide, by decide⟩)
  | uint : ScalarName "uint" (.uint ⟨32, by decide, by decide⟩)
  | int : ScalarName "int" (.int ⟨32, by decide, by decide⟩)
  | fixedBytes (w : Width) : ScalarName ("bytes" ++ Text.ofNat w.bytes) (.fixedBytes w)
  | sizedUint (w : Width) : ScalarName ("uint" ++ Text.ofNat w.bits) (.uint w)
  | sizedInt (w : Width) : ScalarName ("int" ++ Text.ofNat w.bits) (.int w)

/-- The texts that name types: a scalar name with dimensions, the last of which is the outermost. A
length is positive and written without zeros in front, in no more digits than numbers may have. -/
inductive TypeName : Text → AbiType → Prop where
  | scalar {s : Text} {t : AbiType} (h : ScalarName s t) : TypeName s t
  | array {s : Text} {t : AbiType} (h : TypeName s t) : TypeName (s ++ "[]") (.array t)
  | fixedArray {s : Text} {t : AbiType} {n : Length} (h : TypeName s t)
      (hn : (Text.ofNat n.items).length ≤ digitLimit) :
      TypeName (s ++ ("[" ++ Text.ofNat n.items ++ "]")) (.fixedArray t n)

/-! ### What the grammar reads -/

namespace TypeSyntax

/-- A number that was read stands at the start of the text as it is written. -/
theorem eq_append_of_number? {t rest : Text} {n : Length} (h : number? t = some (n, rest)) :
    t = Text.ofNat n.items ++ rest := by
  rw [number?, List.span_eq_takeWhile_dropWhile] at h
  dsimp only at h
  split at h
  · cases h
  · next hhead =>
    split at h
    · next hpos =>
      cases h
      have hne : t.takeWhile CodePoint.isAsciiDigit ≠ [] := by
        intro hnil
        rw [hnil] at hpos
        exact absurd hpos (by decide)
      have hdigits := Text.ofNat_foldl (fun _ hc => List.mem_takeWhile_imp hc) hne hhead
      dsimp only
      rw [hdigits, List.takeWhile_append_dropWhile]
    · cases h

theorem eq_append_of_suffixAt {t rest : Text} {s : Option Suffix} (h : suffixAt t = (s, rest)) :
    t = s.elim [] Suffix.text ++ rest ∧ ∀ suffix ∈ s, suffix.IsPositive := by
  rw [suffixAt] at h
  split at h
  · cases h
    refine ⟨rfl, fun suffix hsuffix => ?_⟩
    cases hsuffix
  · next m rest' hm =>
    have ht := eq_append_of_number? hm
    -- two numbers with a mark between them, or else one: the mark alone is left in the rest
    split at h
    · cases h
      refine ⟨ht, ?_⟩
      rintro _ ⟨⟩
      exact m.pos
    · next c after =>
      split at h
      · next n after' hn =>
        cases h
        split at hn
        · next hc =>
          refine ⟨?_, ?_⟩
          · rw [ht, hc, eq_append_of_number? hn, Option.elim_some, Suffix.text, List.append_assoc,
              List.cons_append]
          · rintro _ ⟨⟩
            exact ⟨m.pos, n.pos⟩
        · cases hn
      · cases h
        refine ⟨ht, ?_⟩
        rintro _ ⟨⟩
        exact m.pos

theorem eq_append_of_dimension? {t rest : Text} {d : Option Length}
    (h : dimension? t = some (d, rest)) : t = dimensionText d ++ rest := by
  unfold dimension? at h
  split at h
  · next c c' rest' =>
    split at h
    · cases h
    next hopen =>
    rw [ne_eq, not_not] at hopen
    split at h
    · next hclose =>
      cases h
      rw [hopen, hclose]
      rfl
    · split at h
      · next n e after hn =>
        split at h
        · next hclose =>
          cases h
          rw [hopen, eq_append_of_number? hn, hclose, dimensionText, List.cons_append,
            List.append_assoc, List.singleton_append]
        · cases h
      · cases h
  · cases h

theorem eq_append_of_dimensionsAt {most : Nat} {t rest : Text} {ds : List (Option Length)}
    (h : dimensionsAt most t = (ds, rest)) : t = ds.flatMap dimensionText ++ rest := by
  induction most generalizing t ds with
  | zero =>
    cases h
    rfl
  | succ most ih =>
    rw [dimensionsAt] at h
    split at h
    · cases h
      rfl
    · next d rest' hd =>
      dsimp only at h
      cases h
      rw [List.flatMap_cons, List.append_assoc, ← ih rfl]
      exact eq_append_of_dimension? hd

theorem eq_append_of_basic? {t rest : Text} {b : BasicSyntax} (h : basic? t = some (b, rest)) :
    t = b.text ++ rest ∧ b.IsWritable := by
  rw [basic?, List.span_eq_takeWhile_dropWhile] at h
  dsimp only at h
  split at h
  · cases h
  · next hne =>
    rcases hs : suffixAt (t.dropWhile CodePoint.isAsciiLetter) with ⟨suffix, after⟩
    rcases hd : dimensionsAt after.length after with ⟨dimensions, last⟩
    rw [hs] at h
    dsimp only at h
    rw [hd] at h
    cases h
    obtain ⟨hsuffix, hpos⟩ := eq_append_of_suffixAt hs
    refine ⟨?_, ⟨hne, fun _ hc => List.mem_takeWhile_imp hc, hpos⟩⟩
    rw [BasicSyntax.text, List.append_assoc, List.append_assoc, ← eq_append_of_dimensionsAt hd,
      ← hsuffix, List.takeWhile_append_dropWhile]

theorem basic?_of_typeAt {fuel : Nat} {t rest : Text} {b : BasicSyntax}
    (h : typeAt fuel t = some (basic b, rest)) : basic? t = some (b, rest) := by
  cases fuel with
  | zero => cases h
  | succ fuel =>
    cases t with
    | nil => cases h
    | cons c t =>
      rw [typeAt] at h
      split at h
      -- behind a parenthesis a tuple is read, which is nothing basic
      · obtain ⟨⟨components, after⟩, -, h⟩ := Option.bind_eq_some_iff.mp h
        cases h
      · obtain ⟨⟨b', rest'⟩, hb, h⟩ := Option.map_eq_some_iff.mp h
        cases h
        exact hb

/-- The grammar reads a basic type from its own text and from no other. -/
theorem parse?_eq_basic_iff {t : Text} {b : BasicSyntax} :
    parse? t = some (basic b) ↔ b.IsWritable ∧ t = b.text := by
  constructor
  · intro h
    rw [parse?] at h
    split at h
    · next s hs =>
      cases h
      obtain ⟨ht, hb⟩ := eq_append_of_basic? (basic?_of_typeAt hs)
      rw [List.append_nil] at ht
      exact ⟨hb, ht⟩
    · cases h
  · rintro ⟨hb, rfl⟩
    exact parse?_text hb

end TypeSyntax

/-! ### What expands to a type -/

namespace BasicSyntax

theorem inArray_inj {b c : BasicSyntax} {d : Option Length} (h : b.inArray d = c.inArray d) :
    b = c := by
  obtain ⟨base, suffix, ds⟩ := b
  obtain ⟨base', suffix', ds'⟩ := c
  simpa [inArray] using h

/-- What expands to an array is an array of what expands to its items. -/
theorem exists_of_expanded_eq_inArray {b c : BasicSyntax} {d : Option Length}
    (h : b.expanded = c.inArray d) : ∃ e : BasicSyntax, b = e.inArray d ∧ e.expanded = c := by
  have hdims : b.dimensions = c.dimensions ++ [d] := by
    rw [← dimensions_expanded, h]
    rfl
  have hb : b = inArray { b with dimensions := c.dimensions } d := by
    rw [inArray, ← hdims]
  refine ⟨_, hb, inArray_inj (d := d) ?_⟩
  rw [← expanded_inArray, ← hb, h]

/-- A basic type stands for itself, or it has an alias for its base and no size. -/
theorem expanded_cases (b : BasicSyntax) :
    b.expanded = b ∨ b.suffix = none ∧ ∃ base suffix, (b.base, base, suffix) ∈ aliases ∧
      b.expanded = { b with base := base, suffix := some suffix } := by
  rw [expanded]
  split
  · next base suffix hsuffix halias =>
    obtain ⟨before, after, hsplit, -⟩ := List.lookup_eq_some_iff.mp halias
    exact Or.inr ⟨hsuffix, base, suffix, by rw [hsplit]; simp, rfl⟩
  · exact Or.inl rfl

end BasicSyntax

/-- An alias names the scalar type with the base and size that it stands for. -/
theorem scalarName_of_alias {name base : Text} {suffix : Suffix}
    (halias : (name, base, suffix) ∈ BasicSyntax.aliases) {t : AbiType}
    (ht : t.basic = ⟨base, some suffix, []⟩) : ScalarName name t := by
  have htype := t.type?_basic
  rw [ht] at htype
  simp only [BasicSyntax.aliases, List.mem_cons, Prod.mk.injEq, List.not_mem_nil, or_false] at halias
  rcases halias with ⟨rfl, rfl, rfl⟩ | ⟨rfl, rfl, rfl⟩ | ⟨rfl, rfl, rfl⟩ | ⟨rfl, rfl, rfl⟩ |
    ⟨rfl, rfl, rfl⟩ | ⟨rfl, rfl, rfl⟩
  · cases htype
    exact .int
  · cases htype
    exact .uint
  -- no type has a fraction
  · cases htype
  · cases htype
  · cases htype
    exact .function
  · cases htype
    exact .byte

/-- What expands to a scalar type is its canonical name or an alias. -/
theorem scalarName_of_expanded {t : AbiType} {b : BasicSyntax} (hb : b.expanded = t.basic)
    (hscalar : t.basic.dimensions = []) (hname : ScalarName t.canonical t) :
    ScalarName b.text t := by
  rcases b.expanded_cases with hself | ⟨hsuffix, base, suffix, halias, hexpanded⟩
  · rwa [← hself, hb, AbiType.text_basic]
  · have hdims : b.dimensions = [] := by
      rw [← b.dimensions_expanded, hb, hscalar]
    have htext : b.text = b.base := by
      rw [BasicSyntax.text, hsuffix, hdims, Option.elim_none, List.flatMap_nil, List.append_nil,
        List.append_nil]
    rw [htext]
    refine scalarName_of_alias halias ?_
    rw [← hb, hexpanded, hdims]

/-- The names of a scalar type have syntax that expands to it. -/
theorem exists_expanded_of_scalarName {s : Text} {t : AbiType} (h : ScalarName s t) :
    ∃ b : BasicSyntax, b.IsWritable ∧ s = b.text ∧ b.expanded = t.basic := by
  have hself (t : AbiType) :
      ∃ b : BasicSyntax, b.IsWritable ∧ t.canonical = b.text ∧ b.expanded = t.basic :=
    ⟨t.basic, t.isWritable_basic, t.text_basic.symm, t.expanded_basic⟩
  cases h with
  | address => exact hself .address
  | bool => exact hself .bool
  | string => exact hself .string
  | bytes => exact hself .bytes
  | fixedBytes w => exact hself (.fixedBytes w)
  | sizedUint w => exact hself (.uint w)
  | sizedInt w => exact hself (.int w)
  | byte => exact ⟨⟨"byte", none, []⟩, ⟨by decide, by decide, nofun⟩, rfl, rfl⟩
  | function => exact ⟨⟨"function", none, []⟩, ⟨by decide, by decide, nofun⟩, rfl, rfl⟩
  | uint => exact ⟨⟨"uint", none, []⟩, ⟨by decide, by decide, nofun⟩, rfl, rfl⟩
  | int => exact ⟨⟨"int", none, []⟩, ⟨by decide, by decide, nofun⟩, rfl, rfl⟩

namespace AbiType

theorem hasReadableLengths_of_scalarName {s : Text} {t : AbiType} (h : ScalarName s t) :
    t.HasReadableLengths := by
  cases h <;> exact nofun

theorem hasReadableLengths_array {e : AbiType} :
    (array e).HasReadableLengths ↔ e.HasReadableLengths := by
  simp [HasReadableLengths, basic, BasicSyntax.inArray]

theorem hasReadableLengths_fixedArray {e : AbiType} {n : Length} :
    (fixedArray e n).HasReadableLengths ↔
      e.HasReadableLengths ∧ (Text.ofNat n.items).length ≤ digitLimit := by
  rw [Text.length_ofNat_le_iff]
  simp only [HasReadableLengths, basic, BasicSyntax.inArray, List.mem_append, List.mem_singleton,
    Option.some.injEq]
  constructor
  · intro h
    exact ⟨fun m hm => h m (Or.inl hm), h n (Or.inr rfl)⟩
  · rintro ⟨he, hn⟩ m (hm | rfl)
    · exact he m hm
    · exact hn

/-- What expands to a type is one of its names. -/
theorem typeName_of_expanded {t : AbiType} (h : t.HasReadableLengths) {b : BasicSyntax}
    (hb : b.expanded = t.basic) : TypeName b.text t := by
  induction t generalizing b with
  | address => exact .scalar (scalarName_of_expanded hb rfl .address)
  | bool => exact .scalar (scalarName_of_expanded hb rfl .bool)
  | string => exact .scalar (scalarName_of_expanded hb rfl .string)
  | bytes => exact .scalar (scalarName_of_expanded hb rfl .bytes)
  | fixedBytes w => exact .scalar (scalarName_of_expanded hb rfl (.fixedBytes w))
  | uint w => exact .scalar (scalarName_of_expanded hb rfl (.sizedUint w))
  | int w => exact .scalar (scalarName_of_expanded hb rfl (.sizedInt w))
  | array e ih =>
    -- an alias changes base and size only, so the last dimension is that of the type
    obtain ⟨c, rfl, hc⟩ := BasicSyntax.exists_of_expanded_eq_inArray hb
    rw [BasicSyntax.text_inArray]
    exact .array (ih (hasReadableLengths_array.mp h) hc)
  | fixedArray e n ih =>
    obtain ⟨c, rfl, hc⟩ := BasicSyntax.exists_of_expanded_eq_inArray hb
    obtain ⟨he, hn⟩ := hasReadableLengths_fixedArray.mp h
    rw [BasicSyntax.text_inArray]
    exact .fixedArray (ih he hc) hn

/-- The names of a type have syntax that expands to it. -/
theorem exists_expanded_of_typeName {s : Text} {t : AbiType} (h : TypeName s t) :
    ∃ b : BasicSyntax, b.IsWritable ∧ s = b.text ∧ b.expanded = t.basic ∧ t.HasReadableLengths := by
  induction h with
  | scalar h =>
    obtain ⟨b, hb, hs, hexpanded⟩ := exists_expanded_of_scalarName h
    exact ⟨b, hb, hs, hexpanded, hasReadableLengths_of_scalarName h⟩
  | array _ ih =>
    obtain ⟨b, hb, rfl, hexpanded, hlengths⟩ := ih
    refine ⟨b.inArray none, ⟨hb.base_ne_nil, hb.base, hb.suffix⟩, (b.text_inArray none).symm, ?_,
      hasReadableLengths_array.mpr hlengths⟩
    rw [b.expanded_inArray, hexpanded, basic]
  | @fixedArray _ _ n _ hn ih =>
    obtain ⟨b, hb, rfl, hexpanded, hlengths⟩ := ih
    refine ⟨b.inArray (some n), ⟨hb.base_ne_nil, hb.base, hb.suffix⟩,
      (b.text_inArray (some n)).symm, ?_, hasReadableLengths_fixedArray.mpr ⟨hlengths, hn⟩⟩
    rw [b.expanded_inArray, hexpanded, basic]

theorem exists_expanded_of_ofText {s : Text} {t : AbiType} (h : ofText s = .ok t) :
    ∃ b : BasicSyntax, s = b.text ∧ b.expanded = t.basic := by
  unfold ofText at h
  split at h
  · split at h <;> cases h
  next hparse =>
  split at h
  · cases h
  split at h
  · cases h
  split at h
  · cases h
  · split at h
    · next htype =>
      cases h
      exact ⟨_, (TypeSyntax.parse?_eq_basic_iff.mp hparse).2, eq_basic_of_type? htype⟩
    · cases h

/-- **Just the texts of the language name types**, each of them the type that it spells out. -/
theorem ofText_eq_ok_iff {s : Text} {t : AbiType} : ofText s = .ok t ↔ TypeName s t := by
  constructor
  · intro h
    obtain ⟨b, rfl, hb⟩ := exists_expanded_of_ofText h
    exact typeName_of_expanded (hasReadableLengths_of_ofText h) hb
  · intro h
    obtain ⟨b, hb, rfl, hexpanded, hlengths⟩ := exists_expanded_of_typeName h
    exact ofText_text hb hexpanded hlengths

end AbiType

end LedgerAbi
