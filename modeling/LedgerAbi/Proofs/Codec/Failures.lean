/-
How encoding fails.

* `Value.scalars`, `argumentScalars` — the scalars inside values, from left to right, with the
  scalar types that they are read for;
* `Argument.mapM_scalars`, `Argument.mapM_argumentScalars` — reading values is reading
  their scalars;
* `EscapesEncoding` — the values on which encoding fails outside its own vocabulary;
* `encodesOrRefuses_iff` — on all others it gives bytes, or says that their number is wrong
  or that one of them cannot be encoded.

Design notes: what is quoted in a message has to be written out, and an integer of too many
digits cannot be.  Only a scalar that is not read is quoted by itself, while the comparison
with the types quotes all values.  Hence the order of reading, from left to right, is part
of the first way to escape, and not of the others.
-/
import LedgerAbi.Proofs.Codec.Inhabitants

namespace LedgerAbi

/-! ### Scalars inside values -/

namespace Value

mutual

/-- The scalars of a value, from left to right. -/
def scalars : Value → List Value
  | list items => scalarsOf items
  | v => [v]

def scalarsOf : List Value → List Value
  | [] => []
  | v :: rest => scalars v ++ scalarsOf rest

end

theorem scalars_of_not_list {v : Value} (hv : ∀ items, v ≠ .list items) : v.scalars = [v] := by
  rw [scalars]
  exact hv

end Value

/-- The scalars of values, each with the scalar type that it is read for. -/
def argumentScalars : List AbiType → List Value → List (AbiType × Value)
  | t :: types, v :: values => v.scalars.map (t.leaf, ·) ++ argumentScalars types values
  | _, _ => []

namespace Argument

theorem mapM_scalars_of_not_list {leaf : AbiType} {v : Value} (hv : ∀ items, v ≠ .list items) :
    v.scalars.mapM (scalar leaf) = (read leaf v).map Value.scalars := by
  rw [Value.scalars_of_not_list hv, read_of_not_list hv, List.mapM_cons]
  cases h : scalar leaf v with
  | error e => rfl
  | ok r =>
    rw [Except.map, Value.scalars_of_not_list (scalar_not_list hv h)]
    rfl

mutual

/-- Reading a value is reading its scalars. -/
theorem mapM_scalars (leaf : AbiType) :
    ∀ v : Value, v.scalars.mapM (scalar leaf) = (read leaf v).map Value.scalars
  | .list items => by
    rw [Value.scalars, read, mapM_scalarsOf leaf items]
    cases readItems leaf items <;> rfl
  | .none => mapM_scalars_of_not_list nofun
  | .bool _ => mapM_scalars_of_not_list nofun
  | .int _ => mapM_scalars_of_not_list nofun
  | .float _ => mapM_scalars_of_not_list nofun
  | .text _ => mapM_scalars_of_not_list nofun
  | .bytes _ => mapM_scalars_of_not_list nofun
  | .dict _ => mapM_scalars_of_not_list nofun

theorem mapM_scalarsOf (leaf : AbiType) :
    ∀ items : List Value,
      (Value.scalarsOf items).mapM (scalar leaf) = (readItems leaf items).map Value.scalarsOf
  | [] => rfl
  | v :: rest => by
    rw [Value.scalarsOf, readItems, List.mapM_append, mapM_scalars leaf v, mapM_scalarsOf leaf rest]
    cases read leaf v with
    | error e => rfl
    | ok r => cases readItems leaf rest <;> rfl

end

theorem mapM_argumentScalars (types : List AbiType) (values : List Value) :
    (argumentScalars types values).mapM (fun s => scalar s.1 s.2) =
      (readAll types values).map Value.scalarsOf := by
  induction types generalizing values with
  | nil => rfl
  | cons t types ih =>
    cases values with
    | nil => rfl
    | cons v values =>
      have hcomp : ((fun s : AbiType × Value => scalar s.1 s.2) ∘ (t.leaf, ·)) = scalar t.leaf := rfl
      rw [argumentScalars, readAll, List.mapM_append, ih, List.mapM_map, hcomp, mapM_scalars]
      cases read t.leaf v with
      | error e => rfl
      | ok r => cases readAll types values <;> rfl

end Argument

/-! ### Integers of too many digits -/

namespace Value

mutual

/-- Among scalars no list is looked through, so a value is overlong if a scalar of it is. -/
theorem isOverlong_eq : ∀ v : Value, v.isOverlong = v.scalars.any isOverlong
  | list items => by rw [isOverlong, scalars, anyOverlong_eq items]
  | none => rfl
  | bool _ => rfl
  | int _ => (Bool.or_false _).symm
  | float _ => rfl
  | text _ => rfl
  | bytes _ => rfl
  | dict _ => (Bool.or_false _).symm

theorem anyOverlong_eq : ∀ vs : List Value, anyOverlong vs = (scalarsOf vs).any isOverlong
  | [] => rfl
  | v :: rest => by
    rw [anyOverlong, scalarsOf, List.any_append, isOverlong_eq v, anyOverlong_eq rest]

end

end Value

theorem Width.bits_le (w : Width) : w.bits ≤ 256 := by
  have hle := w.le
  rw [bits]
  omega

/-- What fits a type has no integer of more than 256 bits. -/
theorem AbiType.isOverlong_of_fit {t : AbiType} {r : Value} {d : t.Datum} (h : t.fit r = .ok d) :
    r.isOverlong = false := by
  have hitems {e : AbiType} (ih : ∀ {r : Value} {d : e.Datum}, e.fit r = .ok d → r.isOverlong = false)
      {rs : List Value} {ds : List e.Datum} (h : rs.mapM e.fit = .ok ds) :
      (Value.list rs).isOverlong = false := by
    have hfits := Except.mapM_eq_ok_iff.mp h
    clear h
    rw [Value.isOverlong]
    induction hfits with
    | nil => rfl
    | cons hr _ ihr => rw [Value.anyOverlong, ih hr, ihr, Bool.or_false]
  induction t generalizing r with
  | uint w =>
    cases r with
    | int i =>
      rw [fit_uint] at h
      split at h
      · next hbounds =>
        have hword : 2 ^ w.bits ≤ 2 ^ 256 := Nat.pow_le_pow_right (by decide) w.bits_le
        exact exceedsDigitLimit_eq_false (by omega)
      · cases h
    | _ => cases h
  | int w =>
    cases r with
    | int i =>
      rw [fit_int] at h
      split at h
      · next hbounds =>
        have hbits := w.bits_le
        have hword : 2 ^ (w.bits - 1) ≤ 2 ^ 255 := Nat.pow_le_pow_right (by decide) (by omega)
        have hcast : (2 : Int) ^ (w.bits - 1) = ((2 ^ (w.bits - 1) : Nat) : Int) := by simp
        exact exceedsDigitLimit_eq_false (by omega)
      · cases h
    | _ => cases h
  | array e ih =>
    obtain ⟨rs, rfl⟩ := list_of_fit (.inl rfl) h
    exact hitems ih h
  | fixedArray e n ih =>
    obtain ⟨rs, rfl⟩ := list_of_fit (.inr ⟨n, rfl⟩) h
    obtain ⟨ds, hds, -⟩ := Except.bind_eq_ok_iff.mp h
    exact hitems ih hds
  | _ =>
    cases r with
    | int i => cases h
    | list rs => cases h
    | dict entries => cases h
    | _ => rfl

namespace AbiType

/-- A scalar that is read for a scalar type. -/
def Reads (leaf : AbiType) (v : Value) : Prop :=
  match leaf with
  | address => ∃ a, v.SpellsAddress a
  | bytes => ∃ b, v.SpellsBytes b
  | fixedBytes _ => ∃ b, v.SpellsBytes b
  | uint _ => ∃ i, v.SpellsInteger i
  | int _ => ∃ i, v.SpellsInteger i
  | _ => True

/-- A scalar that is read and holds an integer of too many digits then. -/
def ReadsOverlong (leaf : AbiType) (v : Value) : Prop :=
  match leaf with
  | address => False
  | bytes => False
  | fixedBytes _ => False
  | uint _ => ∃ i, v.SpellsInteger i ∧ exceedsDigitLimit i = true
  | int _ => ∃ i, v.SpellsInteger i ∧ exceedsDigitLimit i = true
  | _ => v.isOverlong = true

theorem reads_iff {leaf : AbiType} {v : Value} :
    leaf.Reads v ↔ ∃ r, Argument.scalar leaf v = .ok r := by
  have hbytes : (∃ b, v.SpellsBytes b) ↔ ∃ r, Argument.rawBytes v = .ok r := by
    simp only [Argument.rawBytes_eq_ok_iff, exists_comm (α := Value), exists_and_left, exists_eq,
      and_true]
  have hinteger : (∃ i, v.SpellsInteger i) ↔ ∃ r, Argument.integer v = .ok r := by
    simp only [Argument.integer_eq_ok_iff, exists_comm (α := Value), exists_and_left, exists_eq,
      and_true]
  cases leaf with
  | address =>
    rw [Reads]
    simp only [Argument.scalar_address_eq_ok_iff, exists_comm (α := Value), exists_and_left,
      exists_eq, and_true]
  | bytes => exact hbytes
  | fixedBytes w => exact hbytes
  | uint w => exact hinteger
  | int w => exact hinteger
  | _ => exact iff_of_true trivial ⟨_, rfl⟩

theorem readsOverlong_iff {leaf : AbiType} {v : Value} :
    leaf.ReadsOverlong v ↔ ∃ r, Argument.scalar leaf v = .ok r ∧ r.isOverlong = true := by
  have hbytes : False ↔ ∃ r, Argument.rawBytes v = .ok r ∧ r.isOverlong = true := by
    refine iff_of_false not_false ?_
    rintro ⟨r, hr, hoverlong⟩
    obtain ⟨b, -, rfl⟩ := Argument.rawBytes_eq_ok_iff.mp hr
    cases hoverlong
  have hinteger : (∃ i, v.SpellsInteger i ∧ exceedsDigitLimit i = true) ↔
      ∃ r, Argument.integer v = .ok r ∧ r.isOverlong = true := by
    constructor
    · rintro ⟨i, hi, hoverlong⟩
      exact ⟨.int i, Argument.integer_eq_ok_iff.mpr ⟨i, hi, rfl⟩, hoverlong⟩
    · rintro ⟨r, hr, hoverlong⟩
      obtain ⟨i, hi, rfl⟩ := Argument.integer_eq_ok_iff.mp hr
      exact ⟨i, hi, hoverlong⟩
  cases leaf with
  | address =>
    refine iff_of_false not_false ?_
    rintro ⟨r, hr, hoverlong⟩
    obtain ⟨a, -, rfl⟩ := Argument.scalar_address_eq_ok_iff.mp hr
    cases hoverlong
  | bytes => exact hbytes
  | fixedBytes w => exact hbytes
  | uint w => exact hinteger
  | int w => exact hinteger
  | bool =>
    have hboolean : (Argument.boolean v).isOverlong = v.isOverlong := by
      unfold Argument.boolean
      split
      · split
        · rfl
        · split <;> rfl
      · rfl
    constructor
    · intro h
      exact ⟨_, rfl, hboolean.trans h⟩
    · rintro ⟨r, hr, hoverlong⟩
      cases hr
      exact hboolean.symm.trans hoverlong
  | _ =>
    constructor
    · intro h
      exact ⟨v, rfl, h⟩
    · rintro ⟨r, hr, hoverlong⟩
      cases hr
      exact hoverlong

end AbiType

/-! ### Outcomes -/

namespace Argument

/-- The failure for a scalar that is not read: it is quoted, if it can be written out. -/
def RefusedAs (v : Value) (e : Error) : Prop :=
  v.isOverlong = true ∧ e = .fault .overlongInteger ∨
    v.isOverlong = false ∧ ∃ cause, e = .encode cause

theorem refusedAs_quoting (v : Value) (cause : EncodeFailure) : RefusedAs v (quoting v cause) := by
  rw [quoting]
  split
  · next hoverlong => exact Or.inl ⟨hoverlong, rfl⟩
  · next hshort => exact Or.inr ⟨Bool.eq_false_iff.mpr hshort, cause, rfl⟩

theorem refusedAs_of_rawBytes {v : Value} {e : Error} (h : rawBytes v = .error e) : RefusedAs v e := by
  unfold rawBytes at h
  split at h
  · cases h
  · split at h
    · cases h
    · cases h
      exact Or.inr ⟨rfl, _, rfl⟩
  · cases h
    exact refusedAs_quoting v _

theorem refusedAs_of_integer {v : Value} {e : Error} (h : integer v = .error e) : RefusedAs v e := by
  unfold integer at h
  split at h
  · cases h
    exact Or.inr ⟨rfl, _, rfl⟩
  · cases h
  · split at h
    · cases h
    · cases h
      exact Or.inr ⟨rfl, _, rfl⟩
  · cases h
    exact refusedAs_quoting v _

theorem refusedAs_of_address {v : Value} {e : Error} (h : Address.ofValue v = .error e) :
    RefusedAs v e := by
  unfold Address.ofValue at h
  split at h
  · split at h
    · cases h
    · cases h
      exact Or.inr ⟨rfl, _, rfl⟩
  · split at h
    · cases h
    · cases h
      exact refusedAs_quoting _ (.invalidAddress _)
  · cases h
    exact refusedAs_quoting v (.invalidAddress v)

theorem refusedAs_of_scalar {leaf : AbiType} {v : Value} {e : Error} (h : scalar leaf v = .error e) :
    RefusedAs v e := by
  cases leaf with
  | address =>
    rcases Except.bind_eq_error_iff.mp h with h | ⟨a, -, h⟩
    · exact refusedAs_of_address h
    · cases h
  | bytes => exact refusedAs_of_rawBytes h
  | fixedBytes w => exact refusedAs_of_rawBytes h
  | uint w => exact refusedAs_of_integer h
  | int w => exact refusedAs_of_integer h
  | _ => cases h

/-- Reading values fails as reading the first scalar does that is not read. -/
theorem readAll_eq_error_iff {types : List AbiType} {values : List Value} {e : Error} :
    readAll types values = .error e ↔
      ∃ before s after, argumentScalars types values = before ++ s :: after ∧
        (∀ w ∈ before, w.1.Reads w.2) ∧ scalar s.1 s.2 = .error e := by
  simp only [AbiType.reads_iff]
  rw [← Except.mapM_eq_error_iff, mapM_argumentScalars]
  cases readAll types values with
  | ok rs => exact iff_of_false nofun nofun
  | error e' =>
    constructor
    · intro h
      cases h
      rfl
    · intro h
      cases h
      rfl

theorem exists_readAll_iff {types : List AbiType} {values : List Value} :
    (∃ rs, readAll types values = .ok rs) ↔ ∀ s ∈ argumentScalars types values, s.1.Reads s.2 := by
  simp only [AbiType.reads_iff]
  constructor
  · rintro ⟨rs, h⟩
    have hscalars := mapM_argumentScalars types values
    rw [h] at hscalars
    exact List.exists_forall₂_iff.mp ⟨_, Except.mapM_eq_ok_iff.mp hscalars⟩
  · intro h
    obtain ⟨read, hscalars⟩ := Except.exists_mapM_eq_ok h
    rw [mapM_argumentScalars] at hscalars
    cases hread : readAll types values with
    | ok rs => exact ⟨rs, rfl⟩
    | error e =>
      rw [hread] at hscalars
      cases hscalars

/-- What is read cannot be written out just if that is so for a scalar. -/
theorem anyOverlong_iff {types : List AbiType} {values rs : List Value}
    (h : readAll types values = .ok rs) :
    Value.anyOverlong rs = true ↔ ∃ s ∈ argumentScalars types values, s.1.ReadsOverlong s.2 := by
  have hscalars := mapM_argumentScalars types values
  rw [h] at hscalars
  have hpairs := Except.mapM_eq_ok_iff.mp hscalars
  clear hscalars
  rw [Value.anyOverlong_eq]
  generalize argumentScalars types values = scalars, Value.scalarsOf rs = read at hpairs
  induction hpairs with
  | nil => simp
  | @cons s r scalars read hs _ ih =>
    have hone : s.1.ReadsOverlong s.2 ↔ r.isOverlong = true := by
      rw [AbiType.readsOverlong_iff, hs]
      simp
    simp only [List.any_cons, Bool.or_eq_true, List.mem_cons, exists_eq_or_imp, hone, ih]

end Argument

theorem Data.isOverlong_of_fit {types : List AbiType} {values rs : List Value} {data : Data types}
    (hread : Argument.readAll types values = .ok rs) (hfit : Data.fit types rs = .ok data) :
    Value.anyOverlong rs = false := by
  induction types generalizing values rs with
  | nil =>
    cases hread
    rfl
  | cons t types ih =>
    cases values with
    | nil =>
      cases hread
      rfl
    | cons v values =>
      obtain ⟨r, -, hread⟩ := Except.bind_eq_ok_iff.mp hread
      obtain ⟨rs', hrs, hread⟩ := Except.bind_eq_ok_iff.mp hread
      cases hread
      obtain ⟨d, hd, hfit⟩ := Except.bind_eq_ok_iff.mp hfit
      obtain ⟨rest, hrest, -⟩ := Except.bind_eq_ok_iff.mp hfit
      rw [Value.anyOverlong, AbiType.isOverlong_of_fit hd, ih hrs hrest]
      rfl

/-- The values on which encoding fails outside its own vocabulary, and how it fails. -/
inductive EscapesEncoding (types : List AbiType) (values : List Value) : Fault → Prop where
  /-- The first scalar that is not read cannot be quoted. -/
  | unquotable {before : List (AbiType × Value)} {leaf : AbiType} {v : Value}
      {after : List (AbiType × Value)} (length_eq : types.length = values.length)
      (split : argumentScalars types values = before ++ (leaf, v) :: after)
      (before_read : ∀ w ∈ before, w.1.Reads w.2) (not_read : ¬ leaf.Reads v)
      (overlong : v.isOverlong = true) : EscapesEncoding types values .overlongInteger
  /-- All scalars are read, and one of them does not fit its type and cannot be written out. -/
  | overlong {leaf : AbiType} {v : Value} (length_eq : types.length = values.length)
      (read : ∀ w ∈ argumentScalars types values, w.1.Reads w.2)
      (mem : (leaf, v) ∈ argumentScalars types values) (overlong : leaf.ReadsOverlong v) :
      EscapesEncoding types values .overlongInteger
  /-- All values belong to their types, but for lone surrogates in a string. -/
  | surrogate (inhabits : List.Forall₂ (AbiType.Inhabits false) types values)
      (not_inhabits : ¬ List.Forall₂ (AbiType.Inhabits true) types values) :
      EscapesEncoding types values .unencodable

/-- Encoding fails in three ways: by the number of values, at a value, or outside its vocabulary. -/
theorem encodeValues_eq_error {types : List AbiType} {values : List Value} {e : Error}
    (h : encodeValues types values = .error e) :
    types.length ≠ values.length ∧ e = .arity (.values types values.length) ∨
      (∃ cause, e = .encode cause) ∨
      ∃ fault, e = .fault fault ∧ EscapesEncoding types values fault := by
  unfold encodeValues at h
  split at h
  · next hlength =>
    cases h
    exact Or.inl ⟨hlength, rfl⟩
  next hlength =>
  have hlength := not_not.mp hlength
  rcases Except.bind_eq_error_iff.mp h with h | ⟨rs, hread, h⟩
  · obtain ⟨before, s, after, hsplit, hbefore, hs⟩ := Argument.readAll_eq_error_iff.mp h
    rcases Argument.refusedAs_of_scalar hs with ⟨hoverlong, rfl⟩ | ⟨-, cause, rfl⟩
    · refine Or.inr (Or.inr ⟨_, rfl, .unquotable hlength hsplit hbefore ?_ hoverlong⟩)
      intro hreads
      obtain ⟨r, hr⟩ := AbiType.reads_iff.mp hreads
      rw [hs] at hr
      cases hr
    · exact Or.inr (Or.inl ⟨cause, rfl⟩)
  split at h
  · split at h
    · next hoverlong =>
      cases h
      obtain ⟨s, hs, hreads⟩ := (Argument.anyOverlong_iff hread).mp hoverlong
      exact Or.inr (Or.inr ⟨_, rfl, .overlong hlength
        (Argument.exists_readAll_iff.mp ⟨rs, hread⟩) hs hreads⟩)
    · cases h
      exact Or.inr (Or.inl ⟨_, rfl⟩)
  · next data hfit =>
    split at h
    · cases h
    · next htexts =>
      cases h
      refine Or.inr (Or.inr ⟨_, rfl, .surrogate ?_ ?_⟩)
      · exact (Data.exists_fit_iff hlength).mp ⟨rs, data, hread, hfit, nofun⟩
      · intro hinhabits
        obtain ⟨rs', data', hread', hfit', htexts'⟩ := (Data.exists_fit_iff hlength).mpr hinhabits
        rw [hread] at hread'
        cases hread'
        rw [hfit] at hfit'
        cases hfit'
        exact htexts (htexts' rfl)

theorem EscapesEncoding.encodeValues_eq {types : List AbiType} {values : List Value} {fault : Fault}
    (h : EscapesEncoding types values fault) : encodeValues types values = .error (.fault fault) := by
  cases h with
  | @unquotable before leaf v after hlength hsplit hbefore hnot hoverlong =>
    have hscalar : Argument.scalar leaf v = .error (.fault .overlongInteger) := by
      cases hs : Argument.scalar leaf v with
      | ok r => exact absurd (AbiType.reads_iff.mpr ⟨r, hs⟩) hnot
      | error e =>
        rcases Argument.refusedAs_of_scalar hs with ⟨-, rfl⟩ | ⟨hshort, -⟩
        · rfl
        · rw [hoverlong] at hshort
          cases hshort
    have hread := Argument.readAll_eq_error_iff.mpr ⟨before, (leaf, v), after, hsplit, hbefore, hscalar⟩
    rw [encodeValues, if_neg (not_not.mpr hlength), hread]
    rfl
  | @overlong leaf v hlength hreads hmem hoverlong =>
    obtain ⟨rs, hread⟩ := Argument.exists_readAll_iff.mpr hreads
    have hlong := (Argument.anyOverlong_iff hread).mpr ⟨_, hmem, hoverlong⟩
    rw [encodeValues, if_neg (not_not.mpr hlength), hread]
    cases hfit : Data.fit types rs with
    | ok data =>
      have hshort := Data.isOverlong_of_fit hread hfit
      rw [hlong] at hshort
      cases hshort
    | error cause =>
      simp only [bind, Except.bind, hfit]
      exact if_pos hlong
  | surrogate hinhabits hnot =>
    have hlength := hinhabits.length_eq
    obtain ⟨rs, data, hread, hfit, -⟩ := (Data.exists_fit_iff hlength).mpr hinhabits
    have htexts : ¬ data.isScalarText types = true := by
      intro htexts
      exact hnot ((Data.exists_fit_iff hlength).mp ⟨rs, data, hread, hfit, fun _ => htexts⟩)
    rw [encodeValues, if_neg (not_not.mpr hlength), hread]
    simp only [bind, Except.bind, hfit]
    exact if_neg htexts

/-- Encoding gives bytes, or says that the number of values is not the number of types, or that a
value cannot be encoded. -/
def EncodesOrRefuses (types : List AbiType) (values : List Value) : Prop :=
  (∃ b, encodeValues types values = .ok b) ∨
    (types.length ≠ values.length ∧
      encodeValues types values = .error (.arity (.values types values.length))) ∨
    ∃ cause, encodeValues types values = .error (.encode cause)

theorem EscapesEncoding.not_encodesOrRefuses {types : List AbiType} {values : List Value}
    {fault : Fault} (h : EscapesEncoding types values fault) : ¬ EncodesOrRefuses types values := by
  have hfault := h.encodeValues_eq
  rintro (⟨b, hb⟩ | ⟨-, harity⟩ | ⟨cause, hcause⟩)
  · rw [hfault] at hb
    cases hb
  · rw [hfault] at harity
    cases harity
  · rw [hfault] at hcause
    cases hcause

/-- **Encoding gives bytes or says what is wrong** on all values but those that cannot be quoted, and
those that are of their types except for a lone surrogate in a string. -/
theorem encodesOrRefuses_iff (types : List AbiType) (values : List Value) :
    EncodesOrRefuses types values ↔ ∀ fault, ¬ EscapesEncoding types values fault := by
  constructor
  · intro h fault hescapes
    exact hescapes.not_encodesOrRefuses h
  · intro h
    cases houtcome : encodeValues types values with
    | ok b => exact Or.inl ⟨b, houtcome⟩
    | error e =>
      rcases encodeValues_eq_error houtcome with ⟨hlength, rfl⟩ | ⟨cause, rfl⟩ | ⟨fault, -, hescapes⟩
      · exact Or.inr (Or.inl ⟨hlength, houtcome⟩)
      · exact Or.inr (Or.inr ⟨cause, houtcome⟩)
      · exact absurd hescapes (h fault)

/-- A string of one lone surrogate, and the least integer of too many digits. -/
theorem not_encodesOrRefuses_surrogate_overlong :
    ¬ EncodesOrRefuses [.string] [.text [.surrogate 0]] ∧
    ¬ EncodesOrRefuses [.uint ⟨32, by decide, by decide⟩] [.int ((10 ^ digitLimit : Nat) : Int)] := by
  constructor
  · refine EscapesEncoding.not_encodesOrRefuses (.surrogate ?_ ?_)
    · exact .cons ⟨_, rfl, nofun⟩ .nil
    · intro h
      cases h with
      | cons htext _ =>
        obtain ⟨t, ht, hscalar⟩ := htext
        cases ht
        cases hscalar rfl
  · have hspells (i : Int) : (Value.int i).SpellsInteger i := Or.inl rfl
    refine EscapesEncoding.not_encodesOrRefuses (.overlong rfl ?_ List.mem_cons_self ⟨_, hspells _, ?_⟩)
    · intro w hw
      rw [List.mem_singleton.mp hw]
      exact ⟨_, hspells _⟩
    · rw [exceedsDigitLimit, Int.natAbs_natCast]
      exact decide_eq_true (Nat.le_refl _)

end LedgerAbi
