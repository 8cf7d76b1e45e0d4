/-
The values that come back from the wire.

* `AbiType.normalForm` — the one form in which a value of a type comes back:
  numbers as numbers, addresses and bytes as capital digits without a mark, fixed
  bytes filled up with zeros, the words for truth as booleans, arrays item by item;
* `AbiType.IsNormal` — what every value in normal form looks like;
* `decodeValues_encodeValues` — encoding any accepted values and decoding the
  bytes gives their normal forms.

Design notes: accepting a value has two stages, reading its spellings with the
scalar type at the bottom of the declared type (`Argument.read`) and comparing the
result with the type (`AbiType.fit`). `Argument.read_eq_ok` inverts the first one,
and `AbiType.toValue_of_fit` follows the second along the type.
-/
import LedgerAbi.Proofs.Codec.Layout
import LedgerAbi.Proofs.Outcome
import LedgerAbi.Proofs.Text.Hexadecimal

namespace LedgerAbi

/-! ### Normal forms -/

/-- The capital digits of bytes that are given raw or in digits, without mark and blanks. -/
def Value.capitalHex : Value → Text
  | .bytes b => Hex.ofBytes b
  | .text t => Text.toUpper ((Hex.stripMark t).filter fun c => !c.isAsciiSpace)
  | _ => []

/-- A number for a text that spells one; anything else stays. -/
def Value.normalInteger : Value → Value
  | .text t => ((t.integer?).map Value.int).getD (.text t)
  | v => v

/-- A boolean for a word; anything else stays. -/
def Value.normalBool : Value → Value
  | .text t => .bool (t.toAsciiLower == "true")
  | v => v

/-- A function on the items of a list; anything else stays. -/
def Value.mapItems (f : Value → Value) : Value → Value
  | .list vs => .list (vs.map f)
  | v => v

/-- True if all code points are capital hexadecimal digits. -/
def Text.IsCapitalHex (t : Text) : Prop := ∀ c ∈ t, ∃ n < 16, c = Hex.capitalDigit n

namespace AbiType

/-- The form in which a value of a type comes back from the wire. -/
def normalForm : AbiType → Value → Value
  | address, v => .text v.capitalHex
  | bool, v => v.normalBool
  | string, v => v
  | bytes, v => .text v.capitalHex
  | fixedBytes w, v => .text (v.capitalHex.rightpad (2 * w.bytes) (.char '0'))
  | uint _, v => v.normalInteger
  | int _, v => v.normalInteger
  | array e, v => v.mapItems (normalForm e)
  | fixedArray e _, v => v.mapItems (normalForm e)

/-- What the values look like that come back for a type. -/
def IsNormal : AbiType → Value → Prop
  | address, .text t => t.length = 40 ∧ t.IsCapitalHex
  | bool, .bool _ => True
  | string, .text _ => True
  | bytes, .text t => t.length % 2 = 0 ∧ t.IsCapitalHex
  | fixedBytes w, .text t => t.length = 2 * w.bytes ∧ t.IsCapitalHex
  | uint w, .int i => 0 ≤ i ∧ i < 2 ^ w.bits
  | int w, .int i => -(2 ^ (w.bits - 1)) ≤ i ∧ i < 2 ^ (w.bits - 1)
  | array e, .list vs => ∀ v ∈ vs, IsNormal e v
  | fixedArray e n, .list vs => vs.length = n.items ∧ ∀ v ∈ vs, IsNormal e v
  | _, _ => False

theorem isCapitalHex_ofBytes (b : Bytes) : (Hex.ofBytes b).IsCapitalHex :=
  fun _ hc => Hex.exists_of_mem_ofBytes hc

theorem isNormal_toValue (t : AbiType) (d : t.Datum) : t.IsNormal (t.toValue d) := by
  induction t with
  | address =>
    have hd := Address.length_eq d
    have hhex := Hex.length_ofBytes (Address.bytes d)
    refine ⟨?_, isCapitalHex_ofBytes _⟩
    show (Hex.ofBytes (Address.bytes d)).length = 40
    omega
  | bool => trivial
  | string => trivial
  | bytes =>
    have hhex := Hex.length_ofBytes d
    refine ⟨?_, isCapitalHex_ofBytes _⟩
    show (Hex.ofBytes d).length % 2 = 0
    omega
  | fixedBytes w =>
    refine ⟨?_, isCapitalHex_ofBytes _⟩
    rw [Hex.length_ofBytes, d.property]
  | uint w =>
    obtain ⟨n, hn⟩ := d
    refine ⟨Int.natCast_nonneg n, ?_⟩
    show (n : Int) < 2 ^ w.bits
    exact_mod_cast hn
  | int w => exact d.property
  | array e ih =>
    intro v hv
    obtain ⟨d', -, rfl⟩ := List.mem_map.mp hv
    exact ih d'
  | fixedArray e n ih =>
    refine ⟨by rw [List.length_map, d.property], fun v hv => ?_⟩
    obtain ⟨d', -, rfl⟩ := List.mem_map.mp hv
    exact ih d'

end AbiType

/-! ### Reading spellings -/

theorem Address.ofText?_eq_some {t : Text} {a : Address} (h : ofText? t = some a) :
    Hex.read? t = some a.bytes := by
  simp only [ofText?] at h
  split at h
  · split at h
    · next b hb =>
      split at h
      · cases h
        exact hb
      · cases h
    · cases h
  · cases h

namespace Argument

theorem rawBytes_eq_ok {v r : Value} (h : rawBytes v = .ok r) :
    ∃ b, r = .bytes b ∧ v.capitalHex = Hex.ofBytes b := by
  unfold rawBytes at h
  split at h
  · next b =>
    cases h
    exact ⟨b, rfl, rfl⟩
  · next t =>
    split at h
    · next b hb =>
      cases h
      exact ⟨b, rfl, (Hex.ofBytes_of_toBytes? hb).symm⟩
    · cases h
  · cases h

theorem ofValue_eq_ok {v : Value} {a : Address} (h : Address.ofValue v = .ok a) :
    v.capitalHex = Hex.ofBytes a.bytes := by
  unfold Address.ofValue at h
  split at h
  · next b =>
    split at h
    · cases h
      rfl
    · cases h
  · next t =>
    split at h
    · next a' ha =>
      cases h
      exact (Hex.ofBytes_of_toBytes? (Address.ofText?_eq_some ha)).symm
    · cases h
  · cases h

theorem integer_eq_ok {v r : Value} (h : integer v = .ok r) :
    ∃ i, r = .int i ∧ (v = .int i ∨ ∃ t, v = .text t ∧ t.integer? = some i) := by
  unfold integer at h
  split at h
  · cases h
  · next i =>
    cases h
    exact ⟨i, rfl, Or.inl rfl⟩
  · next t =>
    split at h
    · next i hi =>
      cases h
      exact ⟨i, rfl, Or.inr ⟨t, rfl, hi⟩⟩
    · cases h
  · cases h

/-- Reading a scalar never gives a list. -/
theorem scalar_not_list {leaf : AbiType} {v r : Value} (hv : ∀ items, v ≠ .list items)
    (h : scalar leaf v = .ok r) : ∀ items, r ≠ .list items := by
  intro items hr
  subst hr
  unfold scalar at h
  split at h
  · obtain ⟨a, -, ha⟩ := Except.bind_eq_ok_iff.mp h
    cases ha
  · obtain ⟨b, hb, -⟩ := rawBytes_eq_ok h
    cases hb
  · obtain ⟨b, hb, -⟩ := rawBytes_eq_ok h
    cases hb
  · obtain ⟨i, hi, -⟩ := integer_eq_ok h
    cases hi
  · obtain ⟨i, hi, -⟩ := integer_eq_ok h
    cases hi
  · have hb := Except.ok.inj h
    unfold boolean at hb
    split at hb
    · split at hb
      · cases hb
      · split at hb <;> cases hb
    -- a value that is no text is taken as it is
    · exact hv items hb
  · exact hv items (Except.ok.inj h)

theorem readItems_eq_ok {leaf : AbiType} {items rs : List Value}
    (h : readItems leaf items = .ok rs) :
    List.Forall₂ (fun v r => read leaf v = .ok r) items rs := by
  induction items generalizing rs with
  | nil =>
    cases h
    exact .nil
  | cons v rest ih =>
    rw [readItems] at h
    obtain ⟨r, hr, h⟩ := Except.bind_eq_ok_iff.mp h
    obtain ⟨rs', hrs', h⟩ := Except.bind_eq_ok_iff.mp h
    cases h
    exact .cons hr (ih hrs')

/-- A list is read item by item, anything else as a scalar. -/
theorem read_eq_ok {leaf : AbiType} {v r : Value} (h : read leaf v = .ok r) :
    (∃ items rs, v = .list items ∧ r = .list rs ∧
        List.Forall₂ (fun x y => read leaf x = .ok y) items rs) ∨
      (∀ items, r ≠ .list items) ∧ scalar leaf v = .ok r := by
  by_cases hv : ∃ items, v = .list items
  · obtain ⟨items, rfl⟩ := hv
    rw [read] at h
    obtain ⟨rs, hrs, h⟩ := Except.bind_eq_ok_iff.mp h
    cases h
    exact Or.inl ⟨items, rs, rfl, rfl, readItems_eq_ok hrs⟩
  · have hnot : ∀ items, v ≠ .list items := fun items hi => hv ⟨items, hi⟩
    rw [read] at h
    · exact Or.inr ⟨scalar_not_list hnot h, h⟩
    · exact hnot

end Argument

/-! ### Comparing with the type -/

namespace AbiType

theorem fit_address (b : Bytes) :
    fit address (.bytes b) = if h : b.length = 20 then .ok ⟨b, h⟩ else .error .wrongKind := rfl

theorem fit_fixedBytes (w : Width) (b : Bytes) :
    fit (fixedBytes w) (.bytes b) =
      if h : b.length ≤ w.bytes then .ok ⟨Bytes.padEnd b w.bytes, Bytes.length_padEnd h⟩
      else .error .outOfBounds := rfl

theorem fit_uint (w : Width) (i : Int) :
    fit (uint w) (.int i) =
      if h : 0 ≤ i ∧ i.toNat < 2 ^ w.bits then .ok ⟨i.toNat, h.2⟩ else .error .outOfBounds := rfl

theorem fit_int (w : Width) (i : Int) :
    fit (int w) (.int i) =
      if h : -(2 ^ (w.bits - 1) : Int) ≤ i ∧ i < (2 ^ (w.bits - 1) : Int) then .ok ⟨i, h⟩
      else .error .outOfBounds := rfl

theorem fit_fixedArray (e : AbiType) (n : Length) (vs : List Value) :
    fit (fixedArray e n) (.list vs) = (do
      let items ← vs.mapM (fit e)
      if h : items.length = n.items then .ok ⟨items, h⟩ else .error .outOfBounds) := rfl

theorem toValue_of_fit_items {e : AbiType} (ih : ∀ {v r : Value} {d : e.Datum},
      Argument.read e.leaf v = .ok r → e.fit r = .ok d → e.toValue d = e.normalForm v)
    {items rs : List Value} {ds : List e.Datum}
    (hread : List.Forall₂ (fun x y => Argument.read e.leaf x = .ok y) items rs)
    (hfit : rs.mapM e.fit = .ok ds) :
    ds.map e.toValue = items.map e.normalForm := by
  have hfits := Except.mapM_eq_ok_iff.mp hfit
  clear hfit
  induction hread generalizing ds with
  | nil =>
    cases hfits
    rfl
  | cons hx _ ihr =>
    cases hfits with
    | cons hy hrest => rw [List.map_cons, List.map_cons, ih hx hy, ihr hrest]

/-- What fits a type that takes no lists was read as a scalar. -/
theorem scalar_of_fit {t leaf : AbiType} (hlist : ∀ rs, t.fit (.list rs) = .error .wrongKind)
    {v r : Value} {d : t.Datum} (hread : Argument.read leaf v = .ok r) (hfit : t.fit r = .ok d) :
    Argument.scalar leaf v = .ok r := by
  rcases Argument.read_eq_ok hread with ⟨items, rs, -, rfl, -⟩ | ⟨-, hscalar⟩
  · rw [hlist rs] at hfit
    cases hfit
  · exact hscalar

/-- What fits an array is a list. -/
theorem list_of_fit {t e : AbiType} (ht : t = array e ∨ ∃ n, t = fixedArray e n) {r : Value}
    {d : t.Datum} (hfit : t.fit r = .ok d) : ∃ rs, r = .list rs := by
  cases r with
  | list rs => exact ⟨rs, rfl⟩
  | _ =>
    obtain rfl | ⟨n, rfl⟩ := ht
    · cases hfit
    · cases hfit

/-- A list is only read from a list, item by item. -/
theorem items_of_read {leaf : AbiType} {v : Value} {rs : List Value}
    (hread : Argument.read leaf v = .ok (.list rs)) :
    ∃ items, v = .list items ∧
      List.Forall₂ (fun x y => Argument.read leaf x = .ok y) items rs := by
  rcases Argument.read_eq_ok hread with ⟨items, rs', hv, hrs, hitems⟩ | ⟨hnot, -⟩
  · cases hrs
    exact ⟨items, hv, hitems⟩
  · exact absurd rfl (hnot rs)

theorem normalInteger_of_integer {v r : Value} (h : Argument.integer v = .ok r) :
    v.normalInteger = r := by
  obtain ⟨i, rfl, rfl | ⟨t, rfl, ht⟩⟩ := Argument.integer_eq_ok h
  · rfl
  · rw [Value.normalInteger, ht]
    rfl

theorem normalBool_of_boolean {v : Value} {b : Bool} (h : Argument.boolean v = .bool b) :
    v.normalBool = .bool b := by
  unfold Argument.boolean at h
  split at h
  · next t =>
    split at h
    · next ht =>
      cases h
      simp [Value.normalBool, ht]
    · next ht =>
      split at h
      · next hf =>
        cases h
        simp [Value.normalBool, ht]
      · cases h
  · rw [h]
    rfl

theorem ofBytes_padEnd (b : Bytes) (n : Nat) :
    Hex.ofBytes (Bytes.padEnd b n) = (Hex.ofBytes b).rightpad (2 * n) (.char '0') := by
  have hzeros : ∀ k, Hex.ofBytes (List.replicate k 0) = List.replicate (2 * k) (.char '0') := by
    intro k
    induction k with
    | zero => rfl
    | succ k ih =>
      rw [List.replicate_succ, Hex.ofBytes_cons, ih]
      rfl
  rw [Bytes.padEnd, Hex.ofBytes_append, hzeros, List.rightpad, Hex.length_ofBytes, Nat.mul_sub]

/-- The datum of an accepted value is shown as the normal form of the value. -/
theorem toValue_of_fit {t : AbiType} {v r : Value} {d : t.Datum}
    (hread : Argument.read t.leaf v = .ok r) (hfit : t.fit r = .ok d) :
    t.toValue d = t.normalForm v := by
  -- what fits a scalar type was read as a scalar, what fits an array was read item by item
  induction t generalizing v r with
  | address =>
    obtain ⟨a, ha, hr⟩ := Except.bind_eq_ok_iff.mp (scalar_of_fit (fun _ => rfl) hread hfit)
    cases hr
    rw [fit_address, dif_pos a.length_eq] at hfit
    have hd := Except.ok.inj hfit
    subst hd
    rw [normalForm, Argument.ofValue_eq_ok ha]
    rfl
  | bool =>
    have hscalar := Except.ok.inj (scalar_of_fit (fun _ => rfl) hread hfit)
    cases r with
    | bool b =>
      have hd := Except.ok.inj hfit
      subst hd
      rw [normalForm, normalBool_of_boolean hscalar]
      rfl
    | _ => cases hfit
  | string =>
    have hscalar := Except.ok.inj (scalar_of_fit (fun _ => rfl) hread hfit)
    cases r with
    | text t =>
      have hd := Except.ok.inj hfit
      subst hd
      rw [normalForm, hscalar]
      rfl
    | _ => cases hfit
  | bytes =>
    obtain ⟨b, rfl, hb⟩ := Argument.rawBytes_eq_ok (scalar_of_fit (fun _ => rfl) hread hfit)
    have hd := Except.ok.inj hfit
    subst hd
    rw [normalForm, hb]
    rfl
  | fixedBytes w =>
    obtain ⟨b, rfl, hb⟩ := Argument.rawBytes_eq_ok (scalar_of_fit (fun _ => rfl) hread hfit)
    rw [fit_fixedBytes] at hfit
    split at hfit
    · have hd := Except.ok.inj hfit
      subst hd
      rw [normalForm, hb, ← ofBytes_padEnd]
      rfl
    · cases hfit
  | uint w =>
    have hscalar := scalar_of_fit (fun _ => rfl) hread hfit
    obtain ⟨i, rfl, -⟩ := Argument.integer_eq_ok hscalar
    rw [fit_uint] at hfit
    split at hfit
    · next hbounds =>
      have hd := Except.ok.inj hfit
      subst hd
      rw [normalForm, normalInteger_of_integer hscalar]
      exact congrArg Value.int (Int.toNat_of_nonneg hbounds.1)
    · cases hfit
  | int w =>
    have hscalar := scalar_of_fit (fun _ => rfl) hread hfit
    obtain ⟨i, rfl, -⟩ := Argument.integer_eq_ok hscalar
    rw [fit_int] at hfit
    split at hfit
    · have hd := Except.ok.inj hfit
      subst hd
      rw [normalForm, normalInteger_of_integer hscalar]
      rfl
    · cases hfit
  | array e ih =>
    obtain ⟨rs, rfl⟩ := list_of_fit (.inl rfl) hfit
    obtain ⟨items, rfl, hitems⟩ := items_of_read hread
    exact congrArg Value.list (toValue_of_fit_items ih hitems hfit)
  | fixedArray e n ih =>
    obtain ⟨rs, rfl⟩ := list_of_fit (.inr ⟨n, rfl⟩) hfit
    obtain ⟨items, rfl, hitems⟩ := items_of_read hread
    rw [fit_fixedArray] at hfit
    obtain ⟨ds, hds, hfit⟩ := Except.bind_eq_ok_iff.mp hfit
    split at hfit
    · have hd := Except.ok.inj hfit
      subst hd
      exact congrArg Value.list (toValue_of_fit_items ih hitems hds)
    · cases hfit

end AbiType

/-! ### There and back -/

theorem Data.toValues_of_fit {types : List AbiType} {values rs : List Value} {data : Data types}
    (hlen : types.length = values.length) (hread : Argument.readAll types values = .ok rs)
    (hfit : Data.fit types rs = .ok data) :
    data.toValues types = List.zipWith AbiType.normalForm types values := by
  induction types generalizing values rs with
  | nil => rfl
  | cons t types ih =>
    cases values with
    | nil => cases hlen
    | cons v values =>
      rw [Argument.readAll] at hread
      obtain ⟨r, hr, hread⟩ := Except.bind_eq_ok_iff.mp hread
      obtain ⟨rs', hrs, hread⟩ := Except.bind_eq_ok_iff.mp hread
      cases hread
      rw [Data.fit] at hfit
      obtain ⟨d, hd, hfit⟩ := Except.bind_eq_ok_iff.mp hfit
      obtain ⟨rest, hrest, hfit⟩ := Except.bind_eq_ok_iff.mp hfit
      cases hfit
      rw [Data.toValues, List.zipWith_cons_cons, AbiType.toValue_of_fit hr hd,
        ih (Nat.succ.inj hlen) hrs hrest]

theorem Data.isNormal_toValues (types : List AbiType) (data : Data types) :
    List.Forall₂ AbiType.IsNormal types (data.toValues types) := by
  induction types with
  | nil => exact .nil
  | cons t types ih =>
    obtain ⟨d, rest⟩ := data
    exact .cons (t.isNormal_toValue d) (ih rest)

/-- Accepting values takes four steps, none of which fails. -/
theorem encodeValues_eq_ok {types : List AbiType} {values : List Value} {b : Bytes}
    (h : encodeValues types values = .ok b) :
    types.length = values.length ∧ ∃ rs data, Argument.readAll types values = .ok rs ∧
      Data.fit types rs = .ok data ∧ data.isScalarText types = true ∧ data.encode types = b := by
  unfold encodeValues at h
  split at h
  · cases h
  · next hlen =>
    obtain ⟨rs, hrs, h⟩ := Except.bind_eq_ok_iff.mp h
    split at h
    · split at h <;> cases h
    · next data hdata =>
      split at h
      · next htext =>
        cases h
        exact ⟨by omega, rs, data, hrs, hdata, htext, rfl⟩
      · cases h

/-- **Codec round trip.** The bytes of any accepted values decode to exactly the normal forms of
these values, and these look as their types say. -/
theorem decodeValues_encodeValues {types : List AbiType} {values : List Value} {b : Bytes}
    (h : encodeValues types values = .ok b) (hb : b.length < 2 ^ 63) :
    decodeValues types (.bytes b) = .ok (List.zipWith AbiType.normalForm types values) ∧
      List.Forall₂ AbiType.IsNormal types (List.zipWith AbiType.normalForm types values) := by
  -- the data between the two directions: encoding ends with them, decoding begins with them
  obtain ⟨hlen, rs, data, hread, hfit, htext, rfl⟩ := encodeValues_eq_ok h
  have hvalues := Data.toValues_of_fit hlen hread hfit
  refine ⟨?_, hvalues ▸ Data.isNormal_toValues types data⟩
  have hdecode := Data.decode_encode types data htext [] (by simpa using hb)
  rw [List.append_nil] at hdecode
  show decodeBytes types (data.encode types) = _
  rw [decodeBytes, hdecode, ← hvalues]

/-- Strings in nested arrays beside numbers, fixed bytes and truth values in text. -/
theorem decodeValues_encodeValues_mixed :
    ∃ b, encodeValues
        [.array (.fixedArray .string ⟨2, by decide⟩), .int ⟨1, by decide, by decide⟩,
          .fixedArray (.fixedBytes ⟨3, by decide, by decide⟩) ⟨2, by decide⟩, .bool]
        [.list [.list [.text "a", .text "bc"]], .text " -1 ",
          .list [.text "0xAb", .bytes [1, 2, 3]], .text "True"] = .ok b ∧
      b.length < 2 ^ 63 ∧
      decodeValues
        [.array (.fixedArray .string ⟨2, by decide⟩), .int ⟨1, by decide, by decide⟩,
          .fixedArray (.fixedBytes ⟨3, by decide, by decide⟩) ⟨2, by decide⟩, .bool]
        (.bytes b) = .ok
        [.list [.list [.text "a", .text "bc"]], .int (-1),
          .list [.text "AB0000", .text "010203"], .bool true] :=
  ⟨_, rfl, by decide +kernel, (@decodeValues_encodeValues _
    [.list [.list [.text "a", .text "bc"]], .text " -1 ",
      .list [.text "0xAb", .bytes [1, 2, 3]], .text "True"] _ rfl (by decide +kernel)).1⟩

end LedgerAbi
