/-
Which values belong to a type.

* `Value.Spells` — what scalars stand for, as themselves or as texts, with a case for each
  kind of scalars that have spellings;
* `AbiType.Inhabits` — the values of a type, by recursion on the type;
* `AbiType.Takes` — the datum that the codec makes of a value, in two steps;
* `AbiType.inhabits_iff` — the codec makes a datum of just the values of the type;
* `exists_encodeValues_iff` — and writes it if its strings can be written.

Design notes: a text with a lone surrogate is read and compared as any other text, and only
has no wire form in the end.  `Inhabits` therefore has a switch for texts: `Inhabits false`
is what the comparison accepts, `Inhabits true` what is written.
-/
import LedgerAbi.Proofs.Codec.Canonical

/-- Counterparts of counterparts. -/
theorem List.exists_forall₂_and_forall₂_iff {α β γ : Type} {R : α → β → Prop} {S : β → γ → Prop}
    {xs : List α} {zs : List γ} :
    (∃ ys, List.Forall₂ R xs ys ∧ List.Forall₂ S ys zs) ↔
      List.Forall₂ (fun x z => ∃ y, R x y ∧ S y z) xs zs := by
  constructor
  · rintro ⟨ys, hR, hS⟩
    induction hR generalizing zs with
    | nil =>
      rw [List.forall₂_nil_left_iff.mp hS]
      exact .nil
    | cons hxy _ ih =>
      obtain ⟨z, zs', hyz, hS', rfl⟩ := List.forall₂_cons_left_iff.mp hS
      exact .cons ⟨_, hxy, hyz⟩ (ih hS')
  · intro h
    induction h with
    | nil => exact ⟨[], .nil, .nil⟩
    | cons hxz _ ih =>
      obtain ⟨y, hxy, hyz⟩ := hxz
      obtain ⟨ys, hR, hS⟩ := ih
      exact ⟨y :: ys, .cons hxy hR, .cons hyz hS⟩

namespace LedgerAbi

/-! ### What scalars stand for -/

namespace Value

/-- A value itself, or a text that spells it. -/
def Spells (v raw : Value) (spelling : Text → Prop) : Prop := v = raw ∨ ∃ t, v = .text t ∧ spelling t

/-- An integer, or a text that spells it. -/
def SpellsInteger (v : Value) (i : Int) : Prop := v.Spells (.int i) fun t => t.integer? = some i

/-- Raw bytes, or a hexadecimal text. -/
def SpellsBytes (v : Value) (b : Bytes) : Prop := v.Spells (.bytes b) fun t => Hex.read? t = some b

/-- The raw bytes of an address, or its forty digits behind a mark or without one. -/
def SpellsAddress (v : Value) (a : Address) : Prop :=
  v.Spells (.bytes a.bytes) fun t => Hex.isAddress t = true ∧ Hex.read? t = some a.bytes

/-- A truth value, or its name in any letter case. -/
def SpellsTruth (v : Value) (b : Bool) : Prop :=
  v.Spells (.bool b) fun t => t.toAsciiLower = if b then "true" else "false"

theorem Spells.not_list {v raw : Value} {spelling : Text → Prop} (h : v.Spells raw spelling)
    (hraw : ∀ items, raw ≠ .list items) : ∀ items, v ≠ .list items := by
  rcases h with rfl | ⟨t, rfl, -⟩
  · exact hraw
  · exact nofun

end Value

/-- The digits of an address spell it, in capitals or small letters, behind a mark or not. -/
theorem Value.spellsAddress_text {a : Address} {t : Text} (h : Hex.Spells t a.bytes) :
    (text t).SpellsAddress a :=
  Or.inr ⟨t, rfl, Hex.isAddress_of_spells h a.length_eq, Hex.read?_of_spells h⟩

theorem Address.ofText?_eq_some_iff {t : Text} {a : Address} :
    ofText? t = some a ↔ Hex.isAddress t = true ∧ Hex.read? t = some a.bytes := by
  constructor
  · intro h
    have haddress : Hex.isAddress t = true := by
      by_contra hnot
      rw [ofText?, if_neg hnot] at h
      cases h
    exact ⟨haddress, ofText?_eq_some h⟩
  · intro h
    rw [ofText?, if_pos h.1, h.2]
    exact dif_pos a.length_eq

theorem Address.ofValue_eq_ok_iff {v : Value} {a : Address} :
    ofValue v = .ok a ↔ v.SpellsAddress a := by
  constructor
  · intro h
    unfold ofValue at h
    split at h
    · next b =>
      split at h
      · cases h
        exact Or.inl rfl
      · cases h
    · next t =>
      split at h
      · next a' ha =>
        cases h
        exact Or.inr ⟨t, rfl, ofText?_eq_some_iff.mp ha⟩
      · cases h
    · cases h
  · rintro (rfl | ⟨t, rfl, ht⟩)
    · exact dif_pos a.length_eq
    · rw [ofValue, ofText?_eq_some_iff.mpr ht]

namespace Argument

theorem integer_eq_ok_iff {v r : Value} : integer v = .ok r ↔ ∃ i, v.SpellsInteger i ∧ r = .int i := by
  constructor
  · intro h
    obtain ⟨i, hr, hv⟩ := integer_eq_ok h
    exact ⟨i, hv, hr⟩
  · rintro ⟨i, rfl | ⟨t, rfl, ht⟩, rfl⟩
    · rfl
    · rw [integer, ht]

theorem rawBytes_eq_ok_iff {v r : Value} : rawBytes v = .ok r ↔ ∃ b, v.SpellsBytes b ∧ r = .bytes b := by
  constructor
  · intro h
    unfold rawBytes at h
    split at h
    · next b =>
      cases h
      exact ⟨b, Or.inl rfl, rfl⟩
    · next t =>
      split at h
      · next b hb =>
        cases h
        exact ⟨b, Or.inr ⟨t, rfl, hb⟩, rfl⟩
      · cases h
    · cases h
  · rintro ⟨b, rfl | ⟨t, rfl, ht⟩, rfl⟩
    · rfl
    · rw [rawBytes, ht]

theorem boolean_eq_bool_iff {v : Value} {b : Bool} : boolean v = .bool b ↔ v.SpellsTruth b := by
  constructor
  · intro h
    unfold boolean at h
    split at h
    · next t =>
      split at h
      · next ht =>
        cases h
        exact Or.inr ⟨t, rfl, ht⟩
      split at h
      · next ht =>
        cases h
        exact Or.inr ⟨t, rfl, ht⟩
      · cases h
    · exact Or.inl h
  · rintro (rfl | ⟨t, rfl, ht⟩)
    · rfl
    · cases b with
      | true =>
        rw [if_pos rfl] at ht
        rw [boolean, if_pos ht]
      | false =>
        rw [if_neg Bool.false_ne_true] at ht
        have htrue : ¬ t.toAsciiLower = "true" := by
          rw [ht]
          decide
        rw [boolean, if_neg htrue, if_pos ht]

theorem scalar_address_eq_ok_iff {v r : Value} :
    scalar .address v = .ok r ↔ ∃ a, v.SpellsAddress a ∧ r = .bytes a.bytes := by
  constructor
  · intro h
    obtain ⟨a, ha, h⟩ := Except.bind_eq_ok_iff.mp h
    exact ⟨a, Address.ofValue_eq_ok_iff.mp ha, (Except.ok.inj h).symm⟩
  · rintro ⟨a, ha, rfl⟩
    rw [scalar, Address.ofValue_eq_ok_iff.mpr ha]
    rfl

/-- What is no list is read as a scalar. -/
theorem read_of_not_list {leaf : AbiType} {v : Value} (hv : ∀ items, v ≠ .list items) :
    read leaf v = scalar leaf v := by
  rw [read]
  exact hv

end Argument

/-! ### The values of a type -/

namespace AbiType

/-- The values of a type. A `strict` type of strings takes no lone surrogates. -/
def Inhabits (strict : Bool) : AbiType → Value → Prop
  | address, v => ∃ a, v.SpellsAddress a
  | bool, v => ∃ b, v.SpellsTruth b
  | string, v => ∃ t, v = .text t ∧ (strict = true → t.isScalar = true)
  | bytes, v => ∃ b, v.SpellsBytes b
  | fixedBytes w, v => ∃ b, v.SpellsBytes b ∧ b.length ≤ w.bytes
  | uint w, v => ∃ i, v.SpellsInteger i ∧ 0 ≤ i ∧ i < (2 : Int) ^ w.bits
  | int w, v => ∃ i, v.SpellsInteger i ∧ -(2 ^ (w.bits - 1) : Int) ≤ i ∧ i < (2 ^ (w.bits - 1) : Int)
  | array e, v => ∃ items, v = .list items ∧ ∀ x ∈ items, Inhabits strict e x
  | fixedArray e n, v =>
    ∃ items, v = .list items ∧ items.length = n.items ∧ ∀ x ∈ items, Inhabits strict e x

/-- The codec makes a datum of a value: it reads its spellings and compares it with the type. -/
def Takes (t : AbiType) (v : Value) (d : t.Datum) : Prop :=
  ∃ r, Argument.read t.leaf v = .ok r ∧ t.fit r = .ok d

/-- The same, and the strings of the datum can be written if they have to be. -/
def TakesAs (strict : Bool) (t : AbiType) (v : Value) (d : t.Datum) : Prop :=
  t.Takes v d ∧ (strict = true → t.isScalarText d = true)

/-- A type that takes no lists takes what is read as a scalar. -/
theorem takes_scalar_iff {t : AbiType} (hleaf : t.leaf = t)
    (hlist : ∀ rs, t.fit (.list rs) = .error .wrongKind) {v : Value} {d : t.Datum} :
    t.Takes v d ↔ (∀ items, v ≠ .list items) ∧ ∃ r, Argument.scalar t v = .ok r ∧ t.fit r = .ok d := by
  rw [Takes, hleaf]
  constructor
  · rintro ⟨r, hread, hfit⟩
    refine ⟨?_, r, scalar_of_fit hlist hread hfit, hfit⟩
    rintro items rfl
    rcases Argument.read_eq_ok hread with ⟨_, rs, -, rfl, -⟩ | ⟨hnot, -⟩
    · rw [hlist rs] at hfit
      cases hfit
    · obtain ⟨rs, -, h⟩ := Except.bind_eq_ok_iff.mp hread
      exact hnot rs (Except.ok.inj h).symm
  · rintro ⟨hv, r, hscalar, hfit⟩
    rw [← Argument.read_of_not_list hv] at hscalar
    exact ⟨r, hscalar, hfit⟩

theorem takes_address_iff {v : Value} {a : address.Datum} : address.Takes v a ↔ v.SpellsAddress a := by
  refine (takes_scalar_iff rfl fun _ => rfl).trans ?_
  constructor
  · rintro ⟨-, r, hscalar, hfit⟩
    obtain ⟨a', ha', rfl⟩ := Argument.scalar_address_eq_ok_iff.mp hscalar
    rw [fit_address, dif_pos a'.length_eq] at hfit
    cases hfit
    exact ha'
  · intro h
    exact ⟨h.not_list nofun, _, Argument.scalar_address_eq_ok_iff.mpr ⟨a, h, rfl⟩, dif_pos a.length_eq⟩

theorem takes_bool_iff {v : Value} {b : bool.Datum} : bool.Takes v b ↔ v.SpellsTruth b := by
  refine (takes_scalar_iff rfl fun _ => rfl).trans ?_
  constructor
  · rintro ⟨-, r, hscalar, hfit⟩
    cases r with
    | bool b' =>
      cases hfit
      exact Argument.boolean_eq_bool_iff.mp (Except.ok.inj hscalar)
    | _ => cases hfit
  · intro h
    exact ⟨h.not_list nofun, .bool b, congrArg Except.ok (Argument.boolean_eq_bool_iff.mpr h), rfl⟩

theorem takes_string_iff {v : Value} {t : string.Datum} : string.Takes v t ↔ v = .text t := by
  refine (takes_scalar_iff rfl fun _ => rfl).trans ?_
  constructor
  · rintro ⟨-, r, hscalar, hfit⟩
    cases r with
    | text t' =>
      cases hfit
      exact Except.ok.inj hscalar
    | _ => cases hfit
  · rintro rfl
    exact ⟨nofun, _, rfl, rfl⟩

theorem takes_bytes_iff {v : Value} {b : bytes.Datum} : bytes.Takes v b ↔ v.SpellsBytes b := by
  refine (takes_scalar_iff rfl fun _ => rfl).trans ?_
  constructor
  · rintro ⟨-, r, hscalar, hfit⟩
    obtain ⟨b', hb', rfl⟩ := Argument.rawBytes_eq_ok_iff.mp hscalar
    cases hfit
    exact hb'
  · intro h
    exact ⟨h.not_list nofun, _, Argument.rawBytes_eq_ok_iff.mpr ⟨b, h, rfl⟩, rfl⟩

/-- Fixed bytes are filled up with zeros. -/
theorem takes_fixedBytes_iff {w : Width} {v : Value} {d : (fixedBytes w).Datum} :
    (fixedBytes w).Takes v d ↔
      ∃ b, v.SpellsBytes b ∧ b.length ≤ w.bytes ∧ Bytes.padEnd b w.bytes = d.val := by
  refine (takes_scalar_iff rfl fun _ => rfl).trans ?_
  constructor
  · rintro ⟨-, r, hscalar, hfit⟩
    obtain ⟨b, hb, rfl⟩ := Argument.rawBytes_eq_ok_iff.mp hscalar
    rw [fit_fixedBytes] at hfit
    split at hfit
    · next hle =>
      cases hfit
      exact ⟨b, hb, hle, rfl⟩
    · cases hfit
  · rintro ⟨b, hb, hle, hpad⟩
    refine ⟨hb.not_list nofun, _, Argument.rawBytes_eq_ok_iff.mpr ⟨b, hb, rfl⟩, ?_⟩
    rw [fit_fixedBytes, dif_pos hle]
    exact congrArg Except.ok (Subtype.ext hpad)

theorem takes_uint_iff {w : Width} {v : Value} {n : (uint w).Datum} :
    (uint w).Takes v n ↔ v.SpellsInteger n.val := by
  refine (takes_scalar_iff rfl fun _ => rfl).trans ?_
  constructor
  · rintro ⟨-, r, hscalar, hfit⟩
    obtain ⟨i, hi, rfl⟩ := Argument.integer_eq_ok_iff.mp hscalar
    rw [fit_uint] at hfit
    split at hfit
    · next hbounds =>
      cases hfit
      rw [Int.toNat_of_nonneg hbounds.1]
      exact hi
    · cases hfit
  · intro h
    refine ⟨h.not_list nofun, _, Argument.integer_eq_ok_iff.mpr ⟨n.val, h, rfl⟩, ?_⟩
    rw [fit_uint]
    exact dif_pos ⟨Int.natCast_nonneg _, n.property⟩

theorem takes_int_iff {w : Width} {v : Value} {i : (int w).Datum} :
    (int w).Takes v i ↔ v.SpellsInteger i.val := by
  refine (takes_scalar_iff rfl fun _ => rfl).trans ?_
  constructor
  · rintro ⟨-, r, hscalar, hfit⟩
    obtain ⟨i', hi', rfl⟩ := Argument.integer_eq_ok_iff.mp hscalar
    rw [fit_int] at hfit
    split at hfit
    · cases hfit
      exact hi'
    · cases hfit
  · intro h
    refine ⟨h.not_list nofun, _, Argument.integer_eq_ok_iff.mpr ⟨i.val, h, rfl⟩, ?_⟩
    rw [fit_int]
    exact dif_pos i.property

theorem takes_array_iff {e : AbiType} {v : Value} {ds : List e.Datum} :
    (array e).Takes v ds ↔ ∃ items, v = .list items ∧ List.Forall₂ e.Takes items ds := by
  constructor
  · rintro ⟨r, hread, hfit⟩
    obtain ⟨rs, rfl⟩ := list_of_fit (.inl rfl) hfit
    obtain ⟨items, rfl, hitems⟩ := items_of_read hread
    exact ⟨items, rfl, List.exists_forall₂_and_forall₂_iff.mp
      ⟨rs, hitems, Except.mapM_eq_ok_iff.mp hfit⟩⟩
  · rintro ⟨items, rfl, h⟩
    obtain ⟨rs, hitems, hfits⟩ := List.exists_forall₂_and_forall₂_iff.mpr h
    exact ⟨.list rs, Argument.read_list hitems, Except.mapM_eq_ok_iff.mpr hfits⟩

theorem takes_fixedArray_iff {e : AbiType} {n : Length} {v : Value} {ds : (fixedArray e n).Datum} :
    (fixedArray e n).Takes v ds ↔ ∃ items, v = .list items ∧ List.Forall₂ e.Takes items ds.val := by
  constructor
  · rintro ⟨r, hread, hfit⟩
    obtain ⟨rs, rfl⟩ := list_of_fit (.inr ⟨n, rfl⟩) hfit
    obtain ⟨items, rfl, hitems⟩ := items_of_read hread
    rw [fit_fixedArray] at hfit
    obtain ⟨ds', hds', hfit⟩ := Except.bind_eq_ok_iff.mp hfit
    split at hfit
    · cases hfit
      exact ⟨items, rfl, List.exists_forall₂_and_forall₂_iff.mp
        ⟨rs, hitems, Except.mapM_eq_ok_iff.mp hds'⟩⟩
    · cases hfit
  · rintro ⟨items, rfl, h⟩
    obtain ⟨rs, hitems, hfits⟩ := List.exists_forall₂_and_forall₂_iff.mpr h
    refine ⟨.list rs, Argument.read_list hitems, ?_⟩
    rw [fit_fixedArray, Except.mapM_eq_ok_iff.mpr hfits]
    exact dif_pos ds.property

/-- Items are taken one by one, with all their strings. -/
theorem forall₂_takesAs_iff {strict : Bool} {e : AbiType} {items : List Value} {ds : List e.Datum} :
    List.Forall₂ (e.TakesAs strict) items ds ↔
      List.Forall₂ e.Takes items ds ∧ (strict = true → ds.all e.isScalarText = true) := by
  constructor
  · intro h
    refine ⟨h.imp fun _ _ hx => hx.1, ?_⟩
    intro hstrict
    induction h with
    | nil => rfl
    | cons hx _ ih => rw [List.all_cons, hx.2 hstrict, ih, Bool.and_self]
  · rintro ⟨h, htexts⟩
    induction h with
    | nil => exact .nil
    | cons hx _ ih =>
      simp only [List.all_cons, Bool.and_eq_true] at htexts
      exact .cons ⟨hx, fun hstrict => (htexts hstrict).1⟩ (ih fun hstrict => (htexts hstrict).2)

/-- **The codec makes a datum of just the values of the type.** -/
theorem inhabits_iff {strict : Bool} {t : AbiType} {v : Value} :
    t.Inhabits strict v ↔ ∃ d, t.TakesAs strict v d := by
  induction t generalizing v with
  | address =>
    rw [Inhabits]
    exact exists_congr fun _ => takes_address_iff.symm.trans (and_iff_left fun _ => rfl).symm
  | bool =>
    rw [Inhabits]
    exact exists_congr fun _ => takes_bool_iff.symm.trans (and_iff_left fun _ => rfl).symm
  | string =>
    rw [Inhabits]
    exact exists_congr fun _ => and_congr_left' takes_string_iff.symm
  | bytes =>
    rw [Inhabits]
    exact exists_congr fun _ => takes_bytes_iff.symm.trans (and_iff_left fun _ => rfl).symm
  | fixedBytes w =>
    rw [Inhabits]
    constructor
    · rintro ⟨b, hb, hle⟩
      exact ⟨⟨_, Bytes.length_padEnd hle⟩, takes_fixedBytes_iff.mpr ⟨b, hb, hle, rfl⟩, fun _ => rfl⟩
    · rintro ⟨d, htakes, -⟩
      obtain ⟨b, hb, hle, -⟩ := takes_fixedBytes_iff.mp htakes
      exact ⟨b, hb, hle⟩
  | uint w =>
    rw [Inhabits]
    constructor
    · rintro ⟨i, hi, hnonneg, hlt⟩
      obtain ⟨n, rfl⟩ := Int.eq_ofNat_of_zero_le hnonneg
      exact ⟨⟨n, by exact_mod_cast hlt⟩, takes_uint_iff.mpr hi, fun _ => rfl⟩
    · rintro ⟨n, htakes, -⟩
      exact ⟨_, takes_uint_iff.mp htakes, Int.natCast_nonneg _, by exact_mod_cast n.property⟩
  | int w =>
    rw [Inhabits]
    constructor
    · rintro ⟨i, hi, hbounds⟩
      exact ⟨⟨i, hbounds⟩, takes_int_iff.mpr hi, fun _ => rfl⟩
    · rintro ⟨i, htakes, -⟩
      exact ⟨i.val, takes_int_iff.mp htakes, i.property⟩
  | array e ih =>
    have hitems (items : List Value) : (∃ ds, List.Forall₂ (e.TakesAs strict) items ds) ↔
        ∀ x ∈ items, ∃ d, e.TakesAs strict x d := List.exists_forall₂_iff
    rw [Inhabits]
    constructor
    · rintro ⟨items, rfl, h⟩
      obtain ⟨ds, hds⟩ := (hitems items).mpr fun x hx => ih.mp (h x hx)
      obtain ⟨htakes, htexts⟩ := forall₂_takesAs_iff.mp hds
      exact ⟨ds, takes_array_iff.mpr ⟨items, rfl, htakes⟩, htexts⟩
    · rintro ⟨ds, htakes, htexts⟩
      obtain ⟨items, rfl, h⟩ := takes_array_iff.mp htakes
      have hds := (hitems items).mp ⟨ds, forall₂_takesAs_iff.mpr ⟨h, htexts⟩⟩
      exact ⟨items, rfl, fun x hx => ih.mpr (hds x hx)⟩
  | fixedArray e n ih =>
    have hitems (items : List Value) : (∃ ds, List.Forall₂ (e.TakesAs strict) items ds) ↔
        ∀ x ∈ items, ∃ d, e.TakesAs strict x d := List.exists_forall₂_iff
    rw [Inhabits]
    constructor
    · rintro ⟨items, rfl, hlength, h⟩
      obtain ⟨ds, hds⟩ := (hitems items).mpr fun x hx => ih.mp (h x hx)
      obtain ⟨htakes, htexts⟩ := forall₂_takesAs_iff.mp hds
      exact ⟨⟨ds, hds.length_eq.symm.trans hlength⟩,
        takes_fixedArray_iff.mpr ⟨items, rfl, htakes⟩, htexts⟩
    · rintro ⟨ds, htakes, htexts⟩
      obtain ⟨items, rfl, h⟩ := takes_fixedArray_iff.mp htakes
      have hds := (hitems items).mp ⟨ds.val, forall₂_takesAs_iff.mpr ⟨h, htexts⟩⟩
      exact ⟨items, rfl, h.length_eq.trans ds.property, fun x hx => ih.mpr (hds x hx)⟩

end AbiType

/-! ### Values for a list of types -/

/-- The codec makes data of just the values that belong to their types. -/
theorem Data.exists_fit_iff {strict : Bool} {types : List AbiType} {values : List Value}
    (hlength : types.length = values.length) :
    (∃ rs data, Argument.readAll types values = .ok rs ∧ Data.fit types rs = .ok data ∧
        (strict = true → data.isScalarText types = true)) ↔
      List.Forall₂ (AbiType.Inhabits strict) types values := by
  induction types generalizing values with
  | nil =>
    rw [List.eq_nil_of_length_eq_zero hlength.symm]
    exact iff_of_true ⟨[], (), rfl, rfl, fun _ => rfl⟩ .nil
  | cons t types ih =>
    cases values with
    | nil => cases hlength
    | cons v values =>
      rw [List.forall₂_cons, ← ih (Nat.succ.inj hlength), AbiType.inhabits_iff]
      constructor
      · rintro ⟨rs, data, hread, hfit, htexts⟩
        obtain ⟨r, hr, hread⟩ := Except.bind_eq_ok_iff.mp hread
        obtain ⟨rs', hrs, hread⟩ := Except.bind_eq_ok_iff.mp hread
        cases hread
        obtain ⟨d, hd, hfit⟩ := Except.bind_eq_ok_iff.mp hfit
        obtain ⟨rest, hrest, hfit⟩ := Except.bind_eq_ok_iff.mp hfit
        cases hfit
        simp only [Data.isScalarText, Bool.and_eq_true] at htexts
        exact ⟨⟨d, ⟨r, hr, hd⟩, fun hstrict => (htexts hstrict).1⟩, rs', rest, hrs, hrest,
          fun hstrict => (htexts hstrict).2⟩
      · rintro ⟨⟨d, ⟨r, hr, hd⟩, htext⟩, rs, rest, hrs, hrest, htexts⟩
        refine ⟨r :: rs, (d, rest), ?_, ?_, ?_⟩
        · rw [Argument.readAll, hr, hrs]
          rfl
        · rw [Data.fit, hd, hrest]
          rfl
        · intro hstrict
          rw [Data.isScalarText, htext hstrict, htexts hstrict]
          rfl

/-- A wire form is written for just the values that belong to their types. -/
theorem exists_encodeValues_iff {types : List AbiType} {values : List Value} :
    (∃ b, encodeValues types values = .ok b) ↔
      List.Forall₂ (AbiType.Inhabits true) types values := by
  constructor
  · rintro ⟨b, h⟩
    obtain ⟨hlength, rs, data, hread, hfit, htexts, -⟩ := encodeValues_eq_ok h
    exact (Data.exists_fit_iff hlength).mp ⟨rs, data, hread, hfit, fun _ => htexts⟩
  · intro h
    obtain ⟨rs, data, hread, hfit, htexts⟩ := (Data.exists_fit_iff h.length_eq).mpr h
    refine ⟨data.encode types, ?_⟩
    rw [encodeValues, if_neg (not_not.mpr h.length_eq), hread]
    simp only [bind, Except.bind, hfit]
    exact if_pos (htexts rfl)

end LedgerAbi
