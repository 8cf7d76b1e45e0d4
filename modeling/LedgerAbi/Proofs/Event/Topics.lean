/-
Topics in a row.

The datum of a type that topics keep in full is one word, wherever it stands.  The
topics of a log, written one after the other, therefore decode together just as
each of them decodes alone.

* `Data.decode_cons_word` — the first word of some bytes is the first datum, and
  the other data are those of the other bytes;
* `decodeText_append` — the same for a topic and the topics behind it;
* `decodeText_flatten` — joined topics decode to some values just when each topic
  alone decodes to its own one.

Design notes: a text of 64 code points need not be a word.  Blanks and a mark take
code points without giving a byte, but whatever they take is missing at the end, so
a text that decodes at all holds nothing but digits (`decodeText_eq_ok_iff`).  This
is what keeps one topic from reaching into the next.
-/
import LedgerAbi.Event.Log
import LedgerAbi.Proofs.Outcome
import LedgerAbi.Proofs.Text.Hexadecimal

namespace LedgerAbi

theorem isHashed_topicType (t : AbiType) : (topicType t).isHashed = false := by
  rw [topicType]
  split
  · rfl
  · next h => simpa using h

/-! ### Words at a position -/

theorem readWord_append_right {word : Bytes} (hword : word.length = 32) (rest : Bytes)
    (position : Nat) : readWord (word ++ rest) (32 + position) = readWord rest position := by
  have hdrop : (word ++ rest).drop (32 + position) = rest.drop position := by
    rw [← List.drop_drop, List.drop_left' hword]
  simp only [readWord, hdrop]

theorem readWord_append_left {word : Bytes} (hword : word.length = 32) (rest : Bytes) :
    readWord (word ++ rest) 0 = readWord word 0 := by
  have htake : (word ++ rest).take 32 = word.take 32 := by
    rw [List.take_left' hword, List.take_of_length_le (Nat.le_of_eq hword)]
  simp only [readWord, List.drop_zero, htake]

theorem length_of_readWord {data word : Bytes} {position : Nat}
    (h : readWord data position = .ok word) : 32 ≤ (data.drop position).length := by
  simp only [readWord] at h
  split at h
  · next htake =>
    rw [List.length_take] at htake
    omega
  · cases h

namespace AbiType

theorem isDynamic_of_not_hashed {t : AbiType} (h : t.isHashed = false) : t.isDynamic = false := by
  cases t with
  | string => cases h
  | bytes => cases h
  | array e => cases h
  | fixedArray e n => cases h
  | _ => rfl

theorem headWords_of_not_hashed {t : AbiType} (h : t.isHashed = false) : t.headWords = 1 := by
  cases t with
  | fixedArray e n => cases h
  | _ => rfl

/-- A datum in a topic depends on its own word only. -/
theorem decode_congr {t : AbiType} (ht : t.isHashed = false) {data other : Bytes}
    {position place : Nat} (h : readWord data position = readWord other place) :
    t.decode data position = t.decode other place := by
  cases t with
  | string => cases ht
  | bytes => cases ht
  | array e => cases ht
  | fixedArray e n => cases ht
  | _ => simp only [decode, readNumber, h]

theorem readWord_of_decode {t : AbiType} (ht : t.isHashed = false) {data : Bytes}
    {position : Nat} {d : t.Datum} (h : t.decode data position = .ok d) :
    ∃ word, readWord data position = .ok word := by
  cases hword : readWord data position with
  | ok word => exact ⟨word, rfl⟩
  | error cause =>
    cases t with
    | string => cases ht
    | bytes => cases ht
    | array e => cases ht
    | fixedArray e n => cases ht
    | _ =>
      simp only [decode, readNumber, hword, bind, Except.bind] at h
      cases h

end AbiType

/-! ### Words in a row -/

namespace Data

variable {types : List AbiType}

theorem readHead_cons {t : AbiType} (ht : t.isHashed = false) (types : List AbiType)
    (data : Bytes) (position : Nat) :
    readHead data (t :: types) position = (do
      let d ← t.decode data position
      let rest ← readHead data types (32 + position)
      .ok (d, rest)) := by
  rw [readHead, AbiType.isDynamic_of_not_hashed ht, AbiType.headWords_of_not_hashed ht,
    Nat.mul_one, Nat.add_comm]
  rfl

/-- The first pass meets what the second one meets. -/
theorem checkHead_eq (htypes : ∀ t ∈ types, t.isHashed = false) (data : Bytes)
    (headSize position : Nat) :
    checkHead data headSize types position = (readHead data types position).map fun _ => () := by
  induction types generalizing position with
  | nil => rfl
  | cons t types ih =>
    obtain ⟨ht, htypes⟩ := List.forall_mem_cons.mp htypes
    rw [readHead_cons ht, checkHead, AbiType.isDynamic_of_not_hashed ht,
      AbiType.headWords_of_not_hashed ht, Nat.mul_one, Nat.add_comm]
    -- both passes decode the members in the same order, so they stop at the same one
    cases hd : t.decode data position with
    | error cause => rfl
    | ok d =>
      show checkHead data headSize types (32 + position) = _
      rw [ih htypes (32 + position)]
      cases readHead data types (32 + position) with
      | error cause => rfl
      | ok rest => rfl

theorem decode_eq_readHead (htypes : ∀ t ∈ types, t.isHashed = false) (data : Bytes) :
    decode types data = readHead data types 0 := by
  rw [decode, checkHead_eq htypes]
  cases readHead data types 0 <;> rfl

theorem readHead_append (htypes : ∀ t ∈ types, t.isHashed = false) {word : Bytes}
    (hword : word.length = 32) (rest : Bytes) (position : Nat) :
    readHead (word ++ rest) types (32 + position) = readHead rest types position := by
  induction types generalizing position with
  | nil => rfl
  | cons t types ih =>
    obtain ⟨ht, htypes⟩ := List.forall_mem_cons.mp htypes
    rw [readHead_cons ht, readHead_cons ht, ih htypes,
      AbiType.decode_congr ht (readWord_append_right hword rest position)]

/-- The first word is the first datum, and the other data are those of the other bytes. -/
theorem decode_cons_word {t : AbiType} (ht : t.isHashed = false)
    (htypes : ∀ t ∈ types, t.isHashed = false) {word : Bytes} (hword : word.length = 32)
    (rest : Bytes) :
    decode (t :: types) (word ++ rest) = (do
      let d ← t.decode word 0
      let later ← decode types rest
      .ok (d, later)) := by
  rw [decode_eq_readHead (List.forall_mem_cons.mpr ⟨ht, htypes⟩), decode_eq_readHead htypes,
    readHead_cons ht, AbiType.decode_congr ht (readWord_append_left hword rest),
    readHead_append htypes hword]

theorem length_of_readHead (htypes : ∀ t ∈ types, t.isHashed = false) {data : Bytes}
    {position : Nat} {d : Data types} (h : readHead data types position = .ok d) :
    32 * types.length ≤ (data.drop position).length := by
  induction types generalizing position with
  | nil => simp
  | cons t types ih =>
    obtain ⟨ht, htypes⟩ := List.forall_mem_cons.mp htypes
    rw [readHead_cons ht] at h
    obtain ⟨first, hfirst, h⟩ := Except.bind_eq_ok_iff.mp h
    obtain ⟨rest, hrest, -⟩ := Except.bind_eq_ok_iff.mp h
    obtain ⟨word, hword⟩ := AbiType.readWord_of_decode ht hfirst
    have hle := length_of_readWord hword
    have hrestle := ih htypes hrest
    rw [List.length_drop] at hle hrestle ⊢
    rw [List.length_cons]
    omega

end Data

/-! ### Values in a row -/

theorem decodeBytes_eq_ok_iff {types : List AbiType} {data : Bytes} {values : List Value} :
    decodeBytes types data = .ok values ↔
      ∃ d, Data.decode types data = .ok d ∧ d.toValues types = values := by
  rw [decodeBytes]
  cases Data.decode types data with
  | error cause =>
    constructor
    · intro h
      cases h
    · rintro ⟨d, hd, -⟩
      cases hd
  | ok d =>
    constructor
    · intro h
      exact ⟨d, rfl, Except.ok.inj h⟩
    · rintro ⟨d', hd, hvalues⟩
      cases hd
      exact congrArg Except.ok hvalues

theorem Data.length_toValues (types : List AbiType) (d : Data types) :
    (d.toValues types).length = types.length := by
  induction types with
  | nil => rfl
  | cons t types ih =>
    obtain ⟨first, rest⟩ := d
    rw [Data.toValues, List.length_cons, List.length_cons, ih]

theorem length_of_decodeText {types : List AbiType} {text : Text} {values : List Value}
    (h : decodeText types text = .ok values) : values.length = types.length := by
  rw [decodeText] at h
  split at h
  · obtain ⟨d, -, rfl⟩ := decodeBytes_eq_ok_iff.mp h
    exact Data.length_toValues types d
  · cases h

theorem length_of_decodeValues {types : List AbiType} {data : Value} {values : List Value}
    (h : decodeValues types data = .ok values) : values.length = types.length := by
  cases data with
  | bytes b =>
    obtain ⟨d, -, rfl⟩ := decodeBytes_eq_ok_iff.mp h
    exact Data.length_toValues types d
  | text t => exact length_of_decodeText h
  | none => cases h
  | bool _ => cases h
  | int _ => cases h
  | float _ => cases h
  | list _ => cases h
  | dict _ => cases h

section Words

variable {t : AbiType} {types : List AbiType} {values : List Value}
variable (ht : t.isHashed = false) (htypes : ∀ t ∈ types, t.isHashed = false)
include ht

theorem decodeBytes_word {word : Bytes} (hword : word.length = 32) {v : Value} :
    decodeBytes [t] word = .ok [v] ↔ ∃ d, t.decode word 0 = .ok d ∧ t.toValue d = v := by
  have hdecode := @Data.decode_cons_word [] t ht (by simp) word hword []
  rw [List.append_nil] at hdecode
  rw [decodeBytes_eq_ok_iff, hdecode]
  constructor
  · rintro ⟨⟨d, rest⟩, h, hv⟩
    obtain ⟨d', hd, h⟩ := Except.bind_eq_ok_iff.mp h
    cases h
    exact ⟨d, hd, (List.cons.inj hv).1⟩
  · rintro ⟨d, hd, rfl⟩
    exact ⟨(d, ()), by rw [hd]; rfl, rfl⟩

include htypes

theorem decodeBytes_append {word : Bytes} (hword : word.length = 32) (rest : Bytes) :
    decodeBytes (t :: types) (word ++ rest) = .ok values ↔
      ∃ v vs, decodeBytes [t] word = .ok [v] ∧ decodeBytes types rest = .ok vs ∧
        values = v :: vs := by
  rw [decodeBytes_eq_ok_iff, Data.decode_cons_word ht htypes hword]
  constructor
  · rintro ⟨d, h, rfl⟩
    obtain ⟨first, hfirst, h⟩ := Except.bind_eq_ok_iff.mp h
    obtain ⟨later, hlater, h⟩ := Except.bind_eq_ok_iff.mp h
    cases h
    exact ⟨_, _, (decodeBytes_word ht hword).mpr ⟨first, hfirst, rfl⟩,
      decodeBytes_eq_ok_iff.mpr ⟨later, hlater, rfl⟩, rfl⟩
  · rintro ⟨v, vs, hv, hvs, rfl⟩
    obtain ⟨first, hfirst, rfl⟩ := (decodeBytes_word ht hword).mp hv
    obtain ⟨later, hlater, rfl⟩ := decodeBytes_eq_ok_iff.mp hvs
    exact ⟨(first, later), by rw [hfirst, hlater]; rfl, rfl⟩

end Words

/-! ### Topics in a row -/

section Topics

variable {t : AbiType} {types : List AbiType} {values : List Value}

/-- A text with room for as many words as there are types decodes only if it holds nothing but
digits. -/
theorem decodeText_eq_ok_iff (htypes : ∀ t ∈ types, t.isHashed = false) {text : Text}
    (hlength : text.length = topicHexLength * types.length) :
    decodeText types text = .ok values ↔
      Hex.IsDigits text ∧ ∃ b, Hex.toBytes? text = some b ∧ decodeBytes types b = .ok values := by
  rw [decodeText]
  constructor
  · intro h
    split at h
    · next b hb =>
      obtain ⟨d, hd, -⟩ := decodeBytes_eq_ok_iff.mp h
      rw [Data.decode_eq_readHead htypes] at hd
      -- the bytes are at least as many as the words that were read, which leaves the text no room
      have hle := Data.length_of_readHead htypes hd
      rw [List.drop_zero] at hle
      rw [topicHexLength] at hlength
      obtain ⟨hdigits, hbytes, -⟩ := Hex.isDigits_of_read? hb (by omega)
      exact ⟨hdigits, b, hbytes, h⟩
    · cases h
  · rintro ⟨hdigits, b, hb, h⟩
    rw [Hex.read?, Hex.stripMark_of_isDigits hdigits, hb]
    exact h

/-- A topic and the topics behind it decode as they do apart from each other. -/
theorem decodeText_append (ht : t.isHashed = false) (htypes : ∀ t ∈ types, t.isHashed = false)
    {topic rest : Text} (htopic : topic.length = topicHexLength)
    (hrest : rest.length = topicHexLength * types.length) :
    decodeText (t :: types) (topic ++ rest) = .ok values ↔
      ∃ v vs, decodeText [t] topic = .ok [v] ∧ decodeText types rest = .ok vs ∧
        values = v :: vs := by
  have hall : ∀ u ∈ t :: types, u.isHashed = false := List.forall_mem_cons.mpr ⟨ht, htypes⟩
  have hone : ∀ u ∈ [t], u.isHashed = false := List.forall_mem_cons.mpr ⟨ht, by simp⟩
  rw [decodeText_eq_ok_iff hall (by
    rw [List.length_append, htopic, hrest, List.length_cons, Nat.mul_succ, Nat.add_comm])]
  constructor
  · rintro ⟨hdigits, b, hb, h⟩
    obtain ⟨hdtopic, hdrest⟩ := Hex.isDigits_append.mp hdigits
    -- among digits alone the first topic ends just where the first word does
    obtain ⟨word, hword, h32⟩ :=
      Hex.exists_toBytes?_of_isDigits hdtopic (show topic.length = 2 * 32 from htopic)
    rw [Hex.toBytes?_append hword] at hb
    obtain ⟨b', hb', rfl⟩ := Option.map_eq_some_iff.mp hb
    obtain ⟨v, vs, hv, hvs, rfl⟩ := (decodeBytes_append ht htypes h32 b').mp h
    exact ⟨v, vs, (decodeText_eq_ok_iff hone htopic).mpr ⟨hdtopic, word, hword, hv⟩,
      (decodeText_eq_ok_iff htypes hrest).mpr ⟨hdrest, b', hb', hvs⟩, rfl⟩
  · rintro ⟨v, vs, hv, hvs, rfl⟩
    obtain ⟨hdtopic, word, hword, hv⟩ := (decodeText_eq_ok_iff hone htopic).mp hv
    obtain ⟨hdrest, b', hb', hvs⟩ := (decodeText_eq_ok_iff htypes hrest).mp hvs
    obtain ⟨word', hword', h32⟩ :=
      Hex.exists_toBytes?_of_isDigits hdtopic (show topic.length = 2 * 32 from htopic)
    cases hword.symm.trans hword'
    exact ⟨Hex.isDigits_append.mpr ⟨hdtopic, hdrest⟩, word ++ b',
      by rw [Hex.toBytes?_append hword, hb']; rfl,
      (decodeBytes_append ht htypes h32 b').mpr ⟨v, vs, hv, hvs, rfl⟩⟩

/-- **Joined topics decode one by one.** -/
theorem decodeText_flatten (htypes : ∀ t ∈ types, t.isHashed = false) {topics : List Text}
    (hcount : types.length = topics.length)
    (htopics : ∀ topic ∈ topics, topic.length = topicHexLength) :
    decodeText types topics.flatten = .ok values ↔
      List.Forall₂ (fun place v => decodeText [place.1] place.2 = .ok [v]) (types.zip topics)
        values := by
  induction types generalizing topics values with
  | nil =>
    have hnil : topics = [] := List.eq_nil_of_length_eq_zero hcount.symm
    subst hnil
    rw [List.zip_nil_left, List.forall₂_nil_left_iff]
    constructor
    · intro h
      exact (Except.ok.inj h).symm
    · rintro rfl
      rfl
  | cons t types ih =>
    cases topics with
    | nil => cases hcount
    | cons topic topics =>
      have hrest : topics.length = types.length := (Nat.succ.inj hcount).symm
      obtain ⟨ht, htypes⟩ := List.forall_mem_cons.mp htypes
      obtain ⟨htopic, htopics⟩ := List.forall_mem_cons.mp htopics
      have hjoined : topics.flatten.length = topicHexLength * types.length := by
        rw [List.length_flatten, List.map_congr_left htopics, List.map_const',
          List.sum_replicate_nat, hrest, Nat.mul_comm]
      -- the first type reads the first topic, the others read the rest
      rw [List.flatten_cons, decodeText_append ht htypes htopic hjoined, List.zip_cons_cons,
        List.forall₂_cons_left_iff]
      constructor
      · rintro ⟨v, vs, hv, hvs, rfl⟩
        exact ⟨v, vs, hv, (ih htypes hrest.symm htopics).mp hvs, rfl⟩
      · rintro ⟨v, vs, hv, hvs, rfl⟩
        exact ⟨v, vs, hv, (ih htypes hrest.symm htopics).mpr hvs, rfl⟩

end Topics

end LedgerAbi
