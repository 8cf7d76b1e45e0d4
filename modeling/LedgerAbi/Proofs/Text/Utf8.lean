/-
Texts survive their UTF-8 form.

* `Text.ofUtf8?_toUtf8` — a text without lone surrogates is read back from the
  bytes that it is written in;
* `Text.isScalar_of_ofUtf8?` — a text that is read from bytes holds none.

Design notes: one lemma for each length of the form, `ofUtf8?_one` to
`ofUtf8?_four`, says that the reader takes the bytes of one number and goes on
with the rest; the theorem picks the lemma by the range of the number.
-/
import LedgerAbi.Text.Utf8

namespace LedgerAbi.Text

theorem toNat_toUInt8 {n : Nat} (h : n < 256) : n.toUInt8.toNat = n := by
  have : n.toUInt8.toNat = n % 256 := UInt8.toNat_ofNat'
  omega

theorem continuation?_toUInt8 (n : Nat) :
    continuation? (0x80 + n % 64).toUInt8 = some (n % 64) := by
  rw [continuation?, toNat_toUInt8 (by omega), if_pos (by omega), Nat.add_sub_cancel_left]

theorem scalar?_char {low : Nat} {c : Char} (h : low ≤ c.toNat) :
    scalar? low c.toNat = some (.char c) := by
  have hv : c.toNat.isValidChar := c.valid
  simp only [Nat.isValidChar] at hv
  rw [scalar?, if_pos (by omega), Char.ofNat_toNat]

theorem ofUtf8?_one {c : Char} (h : c.toNat < 0x80) (bytes : Bytes) :
    ofUtf8? (utf8Bytes c.toNat ++ bytes) = (ofUtf8? bytes).map (.char c :: ·) := by
  rw [utf8Bytes, if_pos h, List.singleton_append, ofUtf8?.eq_def]
  simp only [toNat_toUInt8 (show c.toNat < 256 by omega)]
  rw [if_pos h, Char.ofNat_toNat]

theorem ofUtf8?_two {c : Char} (h : 0x80 ≤ c.toNat) (h' : c.toNat < 0x800) (bytes : Bytes) :
    ofUtf8? (utf8Bytes c.toNat ++ bytes) = (ofUtf8? bytes).map (.char c :: ·) := by
  rw [utf8Bytes, if_neg (by omega), if_pos h', List.cons_append, List.singleton_append, ofUtf8?]
  simp only [toNat_toUInt8 (show 0xC0 + c.toNat / 64 < 256 by omega)]
  rw [if_neg (by omega), if_neg (by omega), if_pos (by omega)]
  simp only [continuation?_toUInt8, Option.bind_eq_bind, Option.bind_some]
  rw [show (0xC0 + c.toNat / 64 - 0xC0) * 64 + c.toNat % 64 = c.toNat by omega, scalar?_char h,
    Option.bind_some]

theorem ofUtf8?_three {c : Char} (h : 0x800 ≤ c.toNat) (h' : c.toNat < 0x10000) (bytes : Bytes) :
    ofUtf8? (utf8Bytes c.toNat ++ bytes) = (ofUtf8? bytes).map (.char c :: ·) := by
  rw [utf8Bytes, if_neg (by omega), if_neg (by omega), if_pos h', List.cons_append,
    List.cons_append, List.singleton_append, ofUtf8?]
  simp only [toNat_toUInt8 (show 0xE0 + c.toNat / 4096 < 256 by omega)]
  rw [if_neg (by omega), if_neg (by omega), if_neg (by omega), if_pos (by omega)]
  simp only [continuation?_toUInt8, Option.bind_eq_bind, Option.bind_some]
  rw [show (0xE0 + c.toNat / 4096 - 0xE0) * 4096 + c.toNat / 64 % 64 * 64 + c.toNat % 64
    = c.toNat by omega, scalar?_char h, Option.bind_some]

theorem ofUtf8?_four {c : Char} (h : 0x10000 ≤ c.toNat) (bytes : Bytes) :
    ofUtf8? (utf8Bytes c.toNat ++ bytes) = (ofUtf8? bytes).map (.char c :: ·) := by
  have hv : c.toNat.isValidChar := c.valid
  simp only [Nat.isValidChar] at hv
  rw [utf8Bytes, if_neg (by omega), if_neg (by omega), if_neg (by omega), List.cons_append,
    List.cons_append, List.cons_append, List.singleton_append, ofUtf8?]
  simp only [toNat_toUInt8 (show 0xF0 + c.toNat / 262144 < 256 by omega)]
  -- one bind at a time: the kernel compares the large factors unit by unit otherwise
  rw [if_neg (by omega), if_neg (by omega), if_neg (by omega), if_neg (by omega),
    if_pos (by omega), continuation?_toUInt8, Option.bind_eq_bind, Option.bind_some,
    continuation?_toUInt8, Option.bind_eq_bind, Option.bind_some, continuation?_toUInt8,
    Option.bind_some]
  rw [show (0xF0 + c.toNat / 262144 - 0xF0) * 262144 + c.toNat / 4096 % 64 * 4096
    + c.toNat / 64 % 64 * 64 + c.toNat % 64 = c.toNat by omega, scalar?_char h, Option.bind_some]

/-- The reader takes the bytes of one character and goes on with the rest. -/
theorem ofUtf8?_utf8Bytes (c : Char) (bytes : Bytes) :
    ofUtf8? (utf8Bytes c.toNat ++ bytes) = (ofUtf8? bytes).map (.char c :: ·) := by
  by_cases h1 : c.toNat < 0x80
  · exact ofUtf8?_one h1 bytes
  · by_cases h2 : c.toNat < 0x800
    · exact ofUtf8?_two (by omega) h2 bytes
    · by_cases h3 : c.toNat < 0x10000
      · exact ofUtf8?_three (by omega) h3 bytes
      · exact ofUtf8?_four (by omega) bytes

theorem ofUtf8?_toUtf8 {t : Text} (h : t.isScalar = true) : ofUtf8? t.toUtf8 = some t := by
  induction t with
  | nil => rfl
  | cons c rest ih =>
    simp only [isScalar, List.all_cons, Bool.and_eq_true] at h
    cases c with
    | surrogate n => simp [CodePoint.isSurrogate] at h
    | char c =>
      have hrest : ofUtf8? (toUtf8 rest) = some rest := ih h.2
      show ofUtf8? (utf8Bytes c.toNat ++ toUtf8 rest) = _
      rw [ofUtf8?_utf8Bytes, hrest]
      rfl

/-! ### What is read -/

theorem isScalar_cons {c : CodePoint} {t : Text} (hc : c.isSurrogate = false)
    (ht : isScalar t = true) : isScalar (c :: t) = true := by
  rw [isScalar, List.all_cons, hc]
  exact ht

theorem isSurrogate_of_scalar? {low n : Nat} {c : CodePoint} (h : scalar? low n = some c) :
    c.isSurrogate = false := by
  rw [scalar?] at h
  split at h
  · cases h
    rfl
  · cases h

/-- A character read from several bytes, and the text after it. -/
theorem isScalar_of_scalar?_bind {low n : Nat} {rest : Bytes} {t : Text}
    (ih : ∀ {u : Text}, ofUtf8? rest = some u → u.isScalar = true)
    (h : ((scalar? low n).bind fun c => (ofUtf8? rest).map (c :: ·)) = some t) :
    t.isScalar = true := by
  obtain ⟨c, hc, h⟩ := Option.bind_eq_some_iff.mp h
  obtain ⟨u, hu, rfl⟩ := Option.map_eq_some_iff.mp h
  exact isScalar_cons (isSurrogate_of_scalar? hc) (ih hu)

/-- No text that is read holds a lone surrogate. -/
theorem isScalar_of_ofUtf8? {bytes : Bytes} {t : Text} (h : ofUtf8? bytes = some t) :
    t.isScalar = true := by
  -- one case for each length of the form of a character, and the others fail
  fun_induction ofUtf8? bytes generalizing t
  case case1 =>
    cases h
    rfl
  case case2 ih =>
    obtain ⟨u, hu, rfl⟩ := Option.map_eq_some_iff.mp h
    exact isScalar_cons rfl (ih hu)
  case case4 ih =>
    obtain ⟨_, -, h⟩ := Option.bind_eq_some_iff.mp h
    exact isScalar_of_scalar?_bind ih h
  case case6 ih =>
    obtain ⟨_, -, h⟩ := Option.bind_eq_some_iff.mp h
    obtain ⟨_, -, h⟩ := Option.bind_eq_some_iff.mp h
    exact isScalar_of_scalar?_bind ih h
  case case8 ih =>
    obtain ⟨_, -, h⟩ := Option.bind_eq_some_iff.mp h
    obtain ⟨_, -, h⟩ := Option.bind_eq_some_iff.mp h
    obtain ⟨_, -, h⟩ := Option.bind_eq_some_iff.mp h
    exact isScalar_of_scalar?_bind ih h
  case case3 | case5 | case7 | case9 | case10 => cases h

end LedgerAbi.Text
