/-
Values that came back from the wire can be sent again.

* `AbiType.rawValue` — a datum in the form in which it is compared with its type;
* `AbiType.read_toValue`, `AbiType.fit_rawValue` — what callers see of a datum is read
  into this form, and this form fits as the same datum;
* `AbiType.isScalarText_of_decode` — what is decoded has a wire form;
* `encodeValues_of_decodeValues` — values look as their types say, whatever bytes they
  were decoded from; they are accepted again and decode to themselves.

Design notes: nothing is asked of the bytes, whose pointers may overlap and which may
hold more than is read.  So their layout plays no part here: all that is used of them is
the data that they decode to.  The bounds are part of a datum, and the one thing that it
may lack, a string without lone surrogates, is what the reader of strings makes sure of.
-/
import LedgerAbi.Proofs.Codec.NormalForm
import LedgerAbi.Proofs.Event.Topics

namespace LedgerAbi

/-! ### Reading what callers see -/

namespace Argument

theorem rawBytes_ofBytes (b : Bytes) : rawBytes (.text (Hex.ofBytes b)) = .ok (.bytes b) := by
  rw [rawBytes, Hex.read?_ofBytes]

/-- Items that are read one by one are read as a list. -/
theorem readItems_of_forall₂ {leaf : AbiType} {items rs : List Value}
    (h : List.Forall₂ (fun v r => read leaf v = .ok r) items rs) :
    readItems leaf items = .ok rs := by
  induction h with
  | nil => rfl
  | cons hv _ ih =>
    rw [readItems, hv, ih]
    rfl

theorem read_list {leaf : AbiType} {items rs : List Value}
    (h : List.Forall₂ (fun v r => read leaf v = .ok r) items rs) :
    read leaf (.list items) = .ok (.list rs) := by
  rw [read, readItems_of_forall₂ h]
  rfl

end Argument

theorem Hex.isAddress_ofBytes {b : Bytes} (h : b.length = 20) :
    Hex.isAddress (Hex.ofBytes b) = true := by
  have hdigits := Hex.isDigits_ofBytes b
  simp only [Hex.isAddress, Hex.stripMark_of_isDigits hdigits, Bool.and_eq_true, beq_iff_eq,
    List.all_eq_true]
  refine ⟨by rw [Hex.length_ofBytes, h], fun c hc => ?_⟩
  obtain ⟨v, hv⟩ := hdigits c hc
  rw [hv]
  rfl

/-- The digits of an address are read as this address. -/
theorem Address.ofValue_hex (a : Address) : Address.ofValue (.text a.hex) = .ok a := by
  have htext : Address.ofText? a.hex = some a := by
    rw [Address.ofText?, Address.hex, if_pos (Hex.isAddress_ofBytes a.length_eq), Hex.read?_ofBytes]
    exact dif_pos a.length_eq
  rw [Address.ofValue, htext]

theorem Argument.scalar_hex (a : Address) : scalar .address (.text a.hex) = .ok (.bytes a.bytes) := by
  rw [scalar, Address.ofValue_hex]
  rfl

/-- Bytes of the full length are not filled up. -/
theorem Bytes.padEnd_eq_self {b : Bytes} {n : Nat} (h : n ≤ b.length) : padEnd b n = b := by
  rw [padEnd, Nat.sub_eq_zero_of_le h, List.replicate_zero, List.append_nil]

namespace AbiType

/-- A datum in the form in which it is compared with its type: addresses and bytes raw. -/
def rawValue : (t : AbiType) → t.Datum → Value
  | address, a => .bytes (Address.bytes a)
  | bool, b => .bool b
  | string, t => .text t
  | bytes, b => .bytes b
  | fixedBytes _, b => .bytes b.val
  | uint _, n => .int (Int.ofNat n.val)
  | int _, i => .int i.val
  | array e, items => .list (List.map (rawValue e) items)
  | fixedArray e _, items => .list (List.map (rawValue e) items.val)

/-- What callers see of a datum is read into the form that is compared with its type. -/
theorem read_toValue (t : AbiType) (d : t.Datum) :
    Argument.read t.leaf (t.toValue d) = .ok (t.rawValue d) := by
  have items {e : AbiType} (ih : ∀ d : e.Datum,
      Argument.read e.leaf (e.toValue d) = .ok (e.rawValue d)) (ds : List e.Datum) :
      List.Forall₂ (fun v r => Argument.read e.leaf v = .ok r) (ds.map e.toValue)
        (ds.map e.rawValue) := by
    rw [List.forall₂_map_left_iff, List.forall₂_map_right_iff, List.forall₂_same]
    exact fun d _ => ih d
  induction t with
  | address => exact Argument.scalar_hex d
  | bool => rfl
  | string => rfl
  | bytes => exact Argument.rawBytes_ofBytes d
  | fixedBytes w => exact Argument.rawBytes_ofBytes d.val
  | uint w => rfl
  | int w => rfl
  | array e ih => exact Argument.read_list (items ih d)
  | fixedArray e n ih => exact Argument.read_list (items ih d.val)

theorem mapM_fit_rawValue {e : AbiType} (ih : ∀ d : e.Datum, e.fit (e.rawValue d) = .ok d)
    (ds : List e.Datum) : (ds.map e.rawValue).mapM e.fit = .ok ds := by
  rw [Except.mapM_eq_ok_iff, List.forall₂_map_left_iff, List.forall₂_same]
  exact fun d _ => ih d

/-- A datum in this form fits its type, as itself. -/
theorem fit_rawValue (t : AbiType) (d : t.Datum) : t.fit (t.rawValue d) = .ok d := by
  induction t with
  | address => exact dif_pos (Address.length_eq d)
  | bool => rfl
  | string => rfl
  | bytes => rfl
  | fixedBytes w =>
    obtain ⟨b, hb⟩ := d
    show fit (fixedBytes w) (.bytes b) = _
    rw [fit_fixedBytes, dif_pos (Nat.le_of_eq hb)]
    exact congrArg Except.ok (Subtype.ext (Bytes.padEnd_eq_self (Nat.le_of_eq hb.symm)))
  | uint w =>
    obtain ⟨n, hn⟩ := d
    exact dif_pos ⟨Int.natCast_nonneg n, hn⟩
  | int w => exact dif_pos d.property
  | array e ih => exact mapM_fit_rawValue ih d
  | fixedArray e n ih =>
    show fit (fixedArray e n) (.list (d.val.map e.rawValue)) = _
    rw [fit_fixedArray, mapM_fit_rawValue ih d.val]
    exact dif_pos d.property

/-! ### What is decoded -/

theorem exists_place_of_mem_readMany {α : Type} {read : Nat → Except Corruption α}
    {step count position : Nat} {items : List α}
    (h : readMany read step count position = .ok items) {item : α} (hitem : item ∈ items) :
    ∃ place, read place = .ok item := by
  induction count generalizing position items with
  | zero =>
    cases h
    cases hitem
  | succ count ih =>
    rw [readMany] at h
    obtain ⟨first, hfirst, h⟩ := Except.bind_eq_ok_iff.mp h
    obtain ⟨rest, hrest, h⟩ := Except.bind_eq_ok_iff.mp h
    cases h
    rcases List.mem_cons.mp hitem with rfl | hitem
    · exact ⟨position, hfirst⟩
    · exact ih hrest hitem

section Members

variable {e : AbiType} {data : Bytes}

/-- An item that was read was decoded somewhere. -/
theorem exists_position_of_readMember {start place : Nat} {d : e.Datum}
    (h : e.readMember data start place = .ok d) : ∃ position, e.decode data position = .ok d := by
  rw [readMember] at h
  split at h
  · obtain ⟨pointer, -, h⟩ := Except.bind_eq_ok_iff.mp h
    exact ⟨_, h⟩
  · exact ⟨_, h⟩

/-- An array that was decoded was read item by item. -/
theorem exists_readMany_of_decode_array {position : Nat} {items : List e.Datum}
    (h : (array e).decode data position = .ok items) :
    ∃ start step count place, readMany (e.readMember data start) step count place = .ok items := by
  replace h : (do
      let count ← readNumber data position
      if e.isDynamic then checkPointers data (position + 32) (32 * count) count (position + 32)
      readMany (e.readMember data (position + 32)) (32 * e.headWords) count (position + 32) :
        Except Corruption (List e.Datum)) = .ok items := h
  obtain ⟨count, -, h⟩ := Except.bind_eq_ok_iff.mp h
  split at h
  · obtain ⟨_, -, h⟩ := Except.bind_eq_ok_iff.mp h
    exact ⟨_, _, _, _, h⟩
  · exact ⟨_, _, _, _, h⟩

theorem exists_readMany_of_decode_fixedArray {n : Length} {position : Nat} {d : (fixedArray e n).Datum}
    (h : (fixedArray e n).decode data position = .ok d) :
    ∃ start step count place, readMany (e.readMember data start) step count place = .ok d.val := by
  refine ⟨position, 32 * e.headWords, n.items, position, ?_⟩
  rw [decode] at h
  simp only [bind, Except.bind] at h
  -- the check stands in one branch only, but what follows it is the same
  split at h
  · split at h
    · cases h
    · split at h
      · next items hitems =>
        cases h
        exact hitems
      · cases h
  · split at h
    · next items hitems =>
      cases h
      exact hitems
    · cases h

/-- If every item that is decoded has a text form, so has what was read of an array. -/
theorem isScalarText_of_readMany
    (ih : ∀ {position : Nat} {d : e.Datum}, e.decode data position = .ok d →
      e.isScalarText d = true) {start step count place : Nat} {items : List e.Datum}
    (h : readMany (e.readMember data start) step count place = .ok items) :
    items.all e.isScalarText = true := by
  refine List.all_eq_true.mpr fun item hitem => ?_
  obtain ⟨place, hplace⟩ := exists_place_of_mem_readMany h hitem
  obtain ⟨position, hposition⟩ := exists_position_of_readMember hplace
  exact ih hposition

end Members

/-- No string inside a datum that was decoded holds a lone surrogate. -/
theorem isScalarText_of_decode {t : AbiType} {data : Bytes} {position : Nat} {d : t.Datum}
    (h : t.decode data position = .ok d) : t.isScalarText d = true := by
  induction t generalizing position with
  | string =>
    rw [decode] at h
    obtain ⟨b, -, h⟩ := Except.bind_eq_ok_iff.mp h
    split at h
    · next text htext =>
      cases h
      exact Text.isScalar_of_ofUtf8? htext
    · cases h
  | array e ih =>
    obtain ⟨_, _, _, _, hitems⟩ := exists_readMany_of_decode_array h
    exact isScalarText_of_readMany ih hitems
  | fixedArray e n ih =>
    obtain ⟨_, _, _, _, hitems⟩ := exists_readMany_of_decode_fixedArray h
    exact isScalarText_of_readMany ih hitems
  | _ => rfl

end AbiType

namespace Data

theorem isScalarText_of_readHead {data : Bytes} {types : List AbiType} {position : Nat}
    {values : Data types} (h : readHead data types position = .ok values) :
    values.isScalarText types = true := by
  induction types generalizing position with
  | nil => rfl
  | cons t types ih =>
    have member {place : Nat} (h : (do
        let d ← t.decode data place
        let rest ← readHead data types (position + 32 * t.headWords)
        .ok (d, rest) : Except Corruption (Data (t :: types))) = .ok values) :
        values.isScalarText (t :: types) = true := by
      obtain ⟨d, hd, h⟩ := Except.bind_eq_ok_iff.mp h
      obtain ⟨rest, hrest, h⟩ := Except.bind_eq_ok_iff.mp h
      cases h
      rw [isScalarText, AbiType.isScalarText_of_decode hd, ih hrest]
      rfl
    rw [readHead] at h
    split at h
    · obtain ⟨place, -, h⟩ := Except.bind_eq_ok_iff.mp h
      exact member h
    · exact member h

theorem isScalarText_of_decode {types : List AbiType} {data : Bytes} {values : Data types}
    (h : decode types data = .ok values) : values.isScalarText types = true := by
  obtain ⟨_, -, h⟩ := Except.bind_eq_ok_iff.mp h
  exact isScalarText_of_readHead h

/-! ### Back again -/

/-- What callers see of some data is read and fits as these data. -/
theorem exists_read_of_toValues (types : List AbiType) (values : Data types) :
    ∃ rs, Argument.readAll types (values.toValues types) = .ok rs ∧ Data.fit types rs = .ok values := by
  induction types with
  | nil => exact ⟨[], rfl, rfl⟩
  | cons t types ih =>
    obtain ⟨d, rest⟩ := values
    obtain ⟨rs, hread, hfit⟩ := ih rest
    refine ⟨t.rawValue d :: rs, ?_, ?_⟩
    · rw [toValues, Argument.readAll, t.read_toValue d, hread]
      rfl
    · rw [Data.fit, t.fit_rawValue d, hfit]
      rfl

end Data

/-- What callers see of data that can be written is accepted, and written as these data. -/
theorem encodeValues_toValues {types : List AbiType} {values : Data types}
    (htext : values.isScalarText types = true) :
    encodeValues types (values.toValues types) = .ok (values.encode types) := by
  obtain ⟨rs, hread, hfit⟩ := Data.exists_read_of_toValues types values
  rw [encodeValues, if_neg (not_not_intro (Data.length_toValues types values).symm), hread]
  simp only [bind, Except.bind, hfit]
  exact if_pos htext

/-- Values are decoded from bytes, which may be given in digits. -/
theorem exists_data_of_decodeValues {types : List AbiType} {data : Value} {vs : List Value}
    (h : decodeValues types data = .ok vs) :
    ∃ bytes values, Data.decode types bytes = .ok values ∧ values.toValues types = vs := by
  unfold decodeValues at h
  split at h
  · exact ⟨_, decodeBytes_eq_ok_iff.mp h⟩
  · rw [decodeText] at h
    split at h
    · exact ⟨_, decodeBytes_eq_ok_iff.mp h⟩
    · cases h
  · cases h

/-- **Decoded values are canonical.** Values that were decoded, from any data, look as their types say.
They are accepted again, and their wire form decodes to exactly these values. -/
theorem encodeValues_of_decodeValues {types : List AbiType} {data : Value} {vs : List Value}
    (h : decodeValues types data = .ok vs) :
    List.Forall₂ AbiType.IsNormal types vs ∧
      ∃ b, encodeValues types vs = .ok b ∧
        (b.length < 2 ^ 63 → decodeValues types (.bytes b) = .ok vs) := by
  obtain ⟨bytes, values, hdecode, rfl⟩ := exists_data_of_decodeValues h
  have htext := Data.isScalarText_of_decode hdecode
  refine ⟨Data.isNormal_toValues types values, values.encode types, encodeValues_toValues htext,
    fun hb => ?_⟩
  have hback := Data.decode_encode types values htext [] (by rwa [List.append_nil])
  rw [List.append_nil] at hback
  exact decodeBytes_eq_ok_iff.mpr ⟨values, hback, rfl⟩

set_option maxRecDepth 2048 in
/-- Two pointers to one place that is not a multiple of 32, with bytes around it that are not read. -/
theorem encodeValues_of_decodeValues_overlapping :
    decodeValues [.bytes, .array (.uint ⟨1, by decide, by decide⟩)]
        (.bytes (wordBytes 65 ++ wordBytes 65 ++ [7] ++ wordBytes 1 ++ wordBytes 0 ++ [1, 2, 3])) =
      .ok [.text "00", .list [.int 0]] ∧
    List.Forall₂ AbiType.IsNormal [.bytes, .array (.uint ⟨1, by decide, by decide⟩)]
        [.text "00", .list [.int 0]] ∧
      ∃ b, encodeValues [.bytes, .array (.uint ⟨1, by decide, by decide⟩)]
          [.text "00", .list [.int 0]] = .ok b ∧ b.length < 2 ^ 63 ∧
        decodeValues [.bytes, .array (.uint ⟨1, by decide, by decide⟩)] (.bytes b) =
          .ok [.text "00", .list [.int 0]] := by
  have h : decodeValues [.bytes, .array (.uint ⟨1, by decide, by decide⟩)]
      (.bytes (wordBytes 65 ++ wordBytes 65 ++ [7] ++ wordBytes 1 ++ wordBytes 0 ++ [1, 2, 3])) =
      .ok [.text "00", .list [.int 0]] := rfl
  obtain ⟨hnormal, b, hb, hback⟩ := encodeValues_of_decodeValues h
  have hlength : b.length < 2 ^ 63 := by
    cases hb
    decide +kernel
  exact ⟨h, hnormal, b, hb, hlength, hback hlength⟩

end LedgerAbi
