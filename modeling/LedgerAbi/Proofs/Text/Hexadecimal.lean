/-
Hexadecimal digits there and back.

* `Hex.toBytes?_ofBytes` — the capital digits of some bytes read as these bytes;
* `Hex.ofBytes_of_toBytes?` — whatever digits some bytes were read from, their
  capital digits are the same text without blanks and in capitals;
* `Hex.isDigits_of_read?` — a byte takes two code points, so a text that is read as
  many bytes as its length allows holds nothing but digits, not even a mark;
* `Hex.Spells` — a text that spells bytes: their digits in any case, with a mark or
  without; such a text is read as these bytes (`Hex.read?_of_spells`);
* `Hex.Pairs` — the grammar of what is read at all (`Hex.read?_eq_some_iff`), and
  `Hex.isAddress_iff` for the forty digits of an address.

Design notes: a code point is known by its number (`CodePoint.toNat_inj`), so
every statement about digits comes down to the three ranges of `hexValue?`.
-/
import LedgerAbi.Hex

namespace LedgerAbi

namespace CodePoint

theorem toNat_inj {c d : CodePoint} (h : c.toNat = d.toNat) : c = d := by
  have gap : ∀ (a : Char) (n : Fin 2048), a.toNat ≠ 0xD800 + n.val := by
    intro a n ha
    have hv : a.toNat.isValidChar := a.valid
    have hn := n.isLt
    simp only [Nat.isValidChar] at hv
    omega
  cases c with
  | char a =>
    cases d with
    | char b => rw [Char.toNat_inj.mp h]
    | surrogate n => exact absurd h (gap a n)
  | surrogate m =>
    cases d with
    | char b => exact absurd h.symm (gap b m)
    | surrogate n => rw [Fin.ext (Nat.add_left_cancel h)]

theorem toNat_ofNat {n : Nat} (h : n < 0x110000) : (ofNat n).toNat = n := by
  unfold ofNat
  split
  · next hs =>
    simp only [toNat]
    omega
  · next hs =>
    have hv : n.isValidChar := by
      simp only [Nat.isValidChar]
      omega
    show (Char.ofNat n).toNat = n
    rw [Char.ofNat, dif_pos hv]
    rfl

theorem ofNat_toNat (c : CodePoint) : ofNat c.toNat = c := by
  refine toNat_inj (toNat_ofNat ?_)
  cases c with
  | char a =>
    have hv : a.toNat.isValidChar := a.valid
    simp only [Nat.isValidChar] at hv
    simp only [toNat]
    omega
  | surrogate n =>
    have hn := n.isLt
    simp only [toNat]
    omega

theorem hexValue?_lt {c : CodePoint} {v : Nat} (h : c.hexValue? = some v) : v < 16 := by
  simp only [hexValue?] at h
  split at h
  · cases h; omega
  · split at h
    · cases h; omega
    · split at h
      · cases h; omega
      · cases h

/-- A digit is no blank. -/
theorem isAsciiSpace_of_hexValue? {c : CodePoint} {v : Nat} (h : c.hexValue? = some v) :
    c.isAsciiSpace = false := by
  simp only [hexValue?] at h
  simp only [isAsciiSpace, Bool.or_eq_false_iff, Bool.and_eq_false_iff, decide_eq_false_iff_not,
    beq_eq_false_iff_ne]
  split at h
  · omega
  · split at h
    · omega
    · split at h
      · omega
      · cases h

end CodePoint

/-! ### Marks -/

namespace Text

/-- The marks of base 16. -/
def IsMark (mark : Text) : Prop := mark ∈ [("0x" : Text), "0X"]

theorem IsMark.length_eq {mark : Text} (h : IsMark mark) : mark.length = 2 := by
  revert mark
  unfold IsMark
  decide

theorem IsMark.ne_nil {mark : Text} (h : IsMark mark) : mark ≠ [] :=
  List.ne_nil_of_length_pos (by rw [h.length_eq]; decide)

theorem IsMark.isBlank {mark : Text} (h : IsMark mark) : ∀ c ∈ mark, c.isBlank = false := by
  revert mark
  unfold IsMark
  decide

/-- A text with a mark begins with it. -/
theorem hasHexMark_iff {t : Text} : t.hasHexMark = true ↔ ∃ mark u, IsMark mark ∧ t = mark ++ u := by
  rw [hasHexMark, Bool.or_eq_true]
  constructor
  · rintro (h | h)
    · obtain ⟨u, hu⟩ := List.isPrefixOf_iff_prefix.mp h
      exact ⟨_, u, List.mem_cons_self, hu.symm⟩
    · obtain ⟨u, hu⟩ := List.isPrefixOf_iff_prefix.mp h
      exact ⟨_, u, List.mem_cons_of_mem _ List.mem_cons_self, hu.symm⟩
  · rintro ⟨mark, u, hmark, rfl⟩
    rcases List.mem_cons.mp hmark with rfl | hmark
    · exact Or.inl (List.isPrefixOf_iff_prefix.mpr (List.prefix_append _ u))
    · rw [List.mem_singleton.mp hmark]
      exact Or.inr (List.isPrefixOf_iff_prefix.mpr (List.prefix_append _ u))

/-- A text without the letter of a mark has no mark. -/
theorem hasHexMark_eq_false {t : Text} (h : ∀ c ∈ t, c ≠ .char 'x' ∧ c ≠ .char 'X') :
    t.hasHexMark = false := by
  have hletter : ∀ mark ∈ [("0x" : Text), "0X"], .char 'x' ∈ mark ∨ .char 'X' ∈ mark := by decide
  refine Bool.eq_false_iff.mpr fun hmark => ?_
  obtain ⟨mark, u, hmem, rfl⟩ := hasHexMark_iff.mp hmark
  rcases hletter mark hmem with hx | hx
  · exact (h _ (List.mem_append_left u hx)).1 rfl
  · exact (h _ (List.mem_append_left u hx)).2 rfl

end Text

namespace Hex

theorem toNat_capitalDigit {n : Nat} (h : n < 16) :
    (capitalDigit n).toNat = if n < 10 then 48 + n else 55 + n := by
  unfold capitalDigit
  rw [CodePoint.toNat_ofNat]
  split <;> omega

theorem hexValue?_capitalDigit {n : Nat} (h : n < 16) :
    (capitalDigit n).hexValue? = some n := by
  have hn := toNat_capitalDigit h
  simp only [CodePoint.hexValue?]
  split at hn
  · rw [if_pos (by omega)]
    congr 1
    omega
  · rw [if_neg (by omega), if_pos (by omega)]
    congr 1
    omega

/-- A digit in capitals is the capital digit of its value. -/
theorem toUpper_of_hexValue? {c : CodePoint} {v : Nat} (h : c.hexValue? = some v) :
    c.toUpper = [capitalDigit v] := by
  have hv := toNat_capitalDigit (CodePoint.hexValue?_lt h)
  simp only [CodePoint.hexValue?] at h
  simp only [CodePoint.toUpper]
  -- decimal digits and capitals stay, small letters move
  split at h
  · cases h
    rw [if_pos (by omega), if_neg (by omega)]
    rw [if_pos (by omega)] at hv
    exact congrArg (fun d => [d]) (CodePoint.toNat_inj (by omega))
  · split at h
    · cases h
      rw [if_pos (by omega), if_neg (by omega)]
      rw [if_neg (by omega)] at hv
      exact congrArg (fun d => [d]) (CodePoint.toNat_inj (by omega))
    · split at h
      · cases h
        rw [if_pos (by omega), if_pos (by omega)]
        rw [if_neg (by omega)] at hv
        refine congrArg (fun d => [d]) (CodePoint.toNat_inj ?_)
        rw [CodePoint.toNat_ofNat (by omega)]
        omega
      · cases h

/-! ### Bytes in digits -/

@[simp] theorem ofBytes_nil : ofBytes [] = [] := rfl

@[simp] theorem ofBytes_cons (b : UInt8) (bytes : Bytes) :
    ofBytes (b :: bytes) =
      capitalDigit (b.toNat / 16) :: capitalDigit (b.toNat % 16) :: ofBytes bytes := rfl

@[simp] theorem ofBytes_append (a b : Bytes) : ofBytes (a ++ b) = ofBytes a ++ ofBytes b := by
  simp [ofBytes]

@[simp] theorem length_ofBytes (bytes : Bytes) : (ofBytes bytes).length = 2 * bytes.length := by
  induction bytes with
  | nil => rfl
  | cons b rest ih =>
    simp only [ofBytes_cons, List.length_cons, ih]
    omega

/-- Every code point of the text is a hexadecimal digit. -/
def IsDigits (t : Text) : Prop := ∀ c ∈ t, ∃ v, c.hexValue? = some v

theorem isDigits_append {t u : Text} : IsDigits (t ++ u) ↔ IsDigits t ∧ IsDigits u :=
  List.forall_mem_append

theorem exists_of_mem_ofBytes {bytes : Bytes} {c : CodePoint} (h : c ∈ ofBytes bytes) :
    ∃ n < 16, c = capitalDigit n := by
  induction bytes with
  | nil => cases h
  | cons b rest ih =>
    have hb := b.toNat_lt
    rw [ofBytes_cons, List.mem_cons, List.mem_cons] at h
    rcases h with rfl | rfl | h
    · exact ⟨_, by omega, rfl⟩
    · exact ⟨_, by omega, rfl⟩
    · exact ih h

theorem isDigits_ofBytes (bytes : Bytes) : IsDigits (ofBytes bytes) := by
  intro c hc
  obtain ⟨n, hn, rfl⟩ := exists_of_mem_ofBytes hc
  exact ⟨n, hexValue?_capitalDigit hn⟩

theorem toBytes?_blank {c : CodePoint} (hc : c.isAsciiSpace = true) (t : Text) :
    toBytes? (c :: t) = toBytes? t := by
  cases t <;> simp only [toBytes?, hc, if_true]

/-- A pair of digits is read as a byte. -/
theorem toBytes?_pair {c d : CodePoint} {high low : Nat} (hc : c.hexValue? = some high)
    (hd : d.hexValue? = some low) (t : Text) :
    toBytes? (c :: d :: t) = (toBytes? t).map ((high * 16 + low).toUInt8 :: ·) := by
  simp only [toBytes?, CodePoint.isAsciiSpace_of_hexValue? hc, Bool.false_eq_true, if_false, hc, hd,
    Option.bind_eq_bind, Option.bind_some]
  cases toBytes? t <;> rfl

theorem toBytes?_ofBytes (bytes : Bytes) : toBytes? (ofBytes bytes) = some bytes := by
  induction bytes with
  | nil => rfl
  | cons b rest ih =>
    have hb := b.toNat_lt
    have hbyte : (b.toNat / 16 * 16 + b.toNat % 16).toUInt8 = b := by
      rw [show b.toNat / 16 * 16 + b.toNat % 16 = b.toNat by omega]
      exact UInt8.ofNat_toNat
    rw [ofBytes_cons, toBytes?_pair (hexValue?_capitalDigit (by omega))
      (hexValue?_capitalDigit (by omega)), hbyte, ih]
    rfl

/-- The letter of a mark is no digit. -/
theorem ne_x_of_hexValue? {c : CodePoint} {v : Nat} (h : c.hexValue? = some v) :
    c ≠ .char 'x' ∧ c ≠ .char 'X' := by
  constructor
  · rintro rfl
    cases h
  · rintro rfl
    cases h

theorem hasHexMark_of_isDigits {t : Text} (h : IsDigits t) : t.hasHexMark = false := by
  refine Text.hasHexMark_eq_false fun c hc => ?_
  obtain ⟨v, hv⟩ := h c hc
  exact ne_x_of_hexValue? hv

/-- The mark is what is taken from the front. -/
theorem stripMark_append {mark u : Text} (hmark : mark ∈ [([] : Text), "0x", "0X"])
    (hu : u.hasHexMark = false) : stripMark (mark ++ u) = u := by
  rcases List.mem_cons.mp hmark with rfl | hmark
  · rw [List.nil_append, stripMark, hu, if_neg Bool.false_ne_true]
  · rw [stripMark, if_pos (Text.hasHexMark_iff.mpr ⟨mark, u, hmark, rfl⟩),
      ← Text.IsMark.length_eq hmark, List.drop_left]

theorem exists_stripMark (t : Text) :
    ∃ mark ∈ [([] : Text), "0x", "0X"], t = mark ++ stripMark t := by
  by_cases h : t.hasHexMark = true
  · obtain ⟨mark, u, hmark, rfl⟩ := Text.hasHexMark_iff.mp h
    refine ⟨mark, List.mem_cons_of_mem _ hmark, ?_⟩
    rw [stripMark, if_pos h, ← Text.IsMark.length_eq hmark, List.drop_left]
  · refine ⟨[], List.mem_cons_self, ?_⟩
    rw [stripMark, if_neg h, List.nil_append]

theorem stripMark_of_isDigits {t : Text} (h : IsDigits t) : stripMark t = t :=
  stripMark_append List.mem_cons_self (hasHexMark_of_isDigits h)

theorem read?_ofBytes (bytes : Bytes) : read? (ofBytes bytes) = some bytes := by
  rw [read?, stripMark_of_isDigits (isDigits_ofBytes bytes), toBytes?_ofBytes]

/-! ### The text that bytes were read from -/

theorem toUpper_cons (c : CodePoint) (t : Text) :
    Text.toUpper (c :: t) = c.toUpper ++ Text.toUpper t := rfl

/-- Induction along the reader: a blank is skipped, two digits make a byte. -/
theorem toBytes?_induction {P : Text → Bytes → Prop} (nil : P [] [])
    (blank : ∀ c t bytes, c.isAsciiSpace = true → toBytes? t = some bytes → P t bytes →
      P (c :: t) bytes)
    (pair : ∀ c d t high low bytes, c.hexValue? = some high → d.hexValue? = some low →
      toBytes? t = some bytes → P t bytes →
      P (c :: d :: t) ((high * 16 + low).toUInt8 :: bytes)) :
    ∀ {t : Text} {bytes : Bytes}, toBytes? t = some bytes → P t bytes := by
  intro t
  fun_induction toBytes? t with
  | case1 =>
    intro bytes h
    cases h
    exact nil
  | case2 c rest hc ih =>
    intro bytes h
    exact blank c rest bytes hc h (ih h)
  | case3 c hc =>
    intro bytes h
    cases h
  | case4 c hc d rest ih =>
    intro bytes h
    simp only [Option.bind_eq_bind, Option.bind_eq_some_iff, Option.some.injEq] at h
    obtain ⟨high, hhigh, low, hlow, later, hlater, rfl⟩ := h
    exact pair c d rest high low later hhigh hlow hlater (ih hlater)

theorem ofBytes_of_toBytes? {t : Text} {bytes : Bytes} (h : toBytes? t = some bytes) :
    ofBytes bytes = Text.toUpper (t.filter fun c => !c.isAsciiSpace) := by
  refine toBytes?_induction (P := fun t bytes =>
    ofBytes bytes = Text.toUpper (t.filter fun c => !c.isAsciiSpace)) rfl ?_ ?_ h
  · intro c t bytes hc _ ih
    simp only [List.filter_cons, hc, Bool.not_true, Bool.false_eq_true, if_false, ih]
  · intro c d t high low bytes hc hd _ ih
    have hhigh := CodePoint.hexValue?_lt hc
    have hlow := CodePoint.hexValue?_lt hd
    have hbyte : ((high * 16 + low).toUInt8).toNat = high * 16 + low := by
      have : (high * 16 + low).toUInt8.toNat = (high * 16 + low) % 256 := UInt8.toNat_ofNat'
      omega
    simp only [List.filter_cons, CodePoint.isAsciiSpace_of_hexValue? hc,
      CodePoint.isAsciiSpace_of_hexValue? hd, Bool.not_false, if_true, toUpper_cons,
      toUpper_of_hexValue? hc, toUpper_of_hexValue? hd, ofBytes_cons, hbyte, ih]
    rw [show (high * 16 + low) / 16 = high by omega, show (high * 16 + low) % 16 = low by omega]
    rfl

theorem two_mul_length_of_toBytes? {t : Text} {bytes : Bytes} (h : toBytes? t = some bytes) :
    2 * bytes.length ≤ t.length := by
  refine toBytes?_induction (P := fun t bytes => 2 * bytes.length ≤ t.length) (by simp) ?_ ?_ h
  · intro c t bytes _ _ ih
    simp only [List.length_cons]
    omega
  · intro c d t high low bytes _ _ _ ih
    simp only [List.length_cons]
    omega

/-- Texts read one after the other give their bytes one after the other. -/
theorem toBytes?_append {t : Text} {bytes : Bytes} (h : toBytes? t = some bytes) (u : Text) :
    toBytes? (t ++ u) = (toBytes? u).map (bytes ++ ·) := by
  refine toBytes?_induction (P := fun t bytes =>
    toBytes? (t ++ u) = (toBytes? u).map (bytes ++ ·)) (by simp) ?_ ?_ h
  · intro c t bytes hc _ ih
    rw [List.cons_append, toBytes?_blank hc, ih]
  · intro c d t high low bytes hc hd _ ih
    rw [List.cons_append, List.cons_append, toBytes?_pair hc hd, ih, Option.map_map]
    rfl

/-! ### Texts of digits only -/

/-- Pairs of digits are always bytes. -/
theorem exists_toBytes?_of_isDigits {t : Text} {n : Nat} (h : IsDigits t) (hlen : t.length = 2 * n) :
    ∃ bytes, toBytes? t = some bytes ∧ bytes.length = n := by
  induction n generalizing t with
  | zero => exact ⟨[], by rw [List.eq_nil_of_length_eq_zero hlen]; rfl, rfl⟩
  | succ n ih =>
    match t with
    | [] => simp at hlen
    | [_] =>
      simp only [List.length_cons, List.length_nil] at hlen
      omega
    | c :: d :: rest =>
      simp only [List.length_cons] at hlen
      obtain ⟨high, hc⟩ := h c (by simp)
      obtain ⟨low, hd⟩ := h d (by simp)
      have hrest : IsDigits rest := fun e he => h e (by simp [he])
      obtain ⟨bytes, hbytes, hn⟩ := ih hrest (by omega)
      exact ⟨_, by rw [toBytes?_pair hc hd, hbytes]; rfl, by rw [List.length_cons, hn]⟩

theorem isDigits_of_length {t : Text} {bytes : Bytes} (h : toBytes? t = some bytes)
    (hlen : t.length = 2 * bytes.length) : IsDigits t := by
  refine toBytes?_induction (P := fun t bytes => t.length = 2 * bytes.length → IsDigits t)
    (by simp [IsDigits]) ?_ ?_ h hlen
  · -- a blank leaves too few code points for the bytes
    intro c t bytes _ ht _ hl
    have := two_mul_length_of_toBytes? ht
    simp only [List.length_cons] at hl
    omega
  · intro c d t high low bytes hc hd _ ih hl e he
    simp only [List.length_cons] at hl
    rcases List.mem_cons.mp he with rfl | he
    · exact ⟨high, hc⟩
    · rcases List.mem_cons.mp he with rfl | he
      · exact ⟨low, hd⟩
      · exact ih (by omega) e he

theorem two_le_length_of_hasHexMark {t : Text} (h : t.hasHexMark = true) : 2 ≤ t.length := by
  rw [Text.hasHexMark, Bool.or_eq_true] at h
  rcases h with h | h
  · exact (List.isPrefixOf_iff_prefix.mp h).length_le
  · exact (List.isPrefixOf_iff_prefix.mp h).length_le

/-- A text that is read as many bytes as its length allows holds nothing but digits: neither a mark
nor a blank leaves room for so many. -/
theorem isDigits_of_read? {t : Text} {bytes : Bytes} (h : read? t = some bytes)
    (hlen : t.length ≤ 2 * bytes.length) :
    IsDigits t ∧ toBytes? t = some bytes ∧ t.length = 2 * bytes.length := by
  have hle := two_mul_length_of_toBytes? h
  have hmark : stripMark t = t := by
    by_cases hmark : t.hasHexMark = true
    · have := two_le_length_of_hasHexMark hmark
      rw [stripMark, if_pos hmark, List.length_drop] at hle
      omega
    · rw [stripMark, if_neg hmark]
  rw [read?, hmark] at h
  rw [hmark] at hle
  exact ⟨isDigits_of_length h (by omega), h, by omega⟩

/-! ### Either case, with a mark or without -/

/-- A text that spells some bytes: their digits, in capitals or small letters, behind a mark or not. -/
def Spells (t : Text) (bytes : Bytes) : Prop :=
  ∃ mark ∈ [([] : Text), "0x", "0X"], ∃ digits : Text, t = mark ++ digits ∧
    digits.toAsciiLower = Text.toAsciiLower (ofBytes bytes)

theorem hexValue?_toAsciiLower (c : CodePoint) : c.toAsciiLower.hexValue? = c.hexValue? := by
  unfold CodePoint.toAsciiLower
  split
  · next hcapital =>
    have hlower : (CodePoint.ofNat (c.toNat + 32)).toNat = c.toNat + 32 :=
      CodePoint.toNat_ofNat (by omega)
    simp only [CodePoint.hexValue?, hlower]
    -- the capitals up to F become the letters up to f, the others stay no digits
    by_cases hdigit : c.toNat ≤ 70
    · rw [if_neg (by omega), if_neg (by omega), if_pos (by omega), if_neg (by omega),
        if_pos (by omega)]
      congr 1
    · rw [if_neg (by omega), if_neg (by omega), if_neg (by omega), if_neg (by omega),
        if_neg (by omega), if_neg (by omega)]
  · rfl

theorem map_hexValue?_toAsciiLower (t : Text) :
    t.toAsciiLower.map CodePoint.hexValue? = t.map CodePoint.hexValue? := by
  rw [Text.toAsciiLower, List.map_map]
  exact List.map_congr_left fun c _ => hexValue?_toAsciiLower c

theorem isDigits_congr {t u : Text} (h : t.map CodePoint.hexValue? = u.map CodePoint.hexValue?)
    (ht : IsDigits t) : IsDigits u := by
  intro d hd
  have hmem : d.hexValue? ∈ t.map CodePoint.hexValue? := h ▸ List.mem_map_of_mem hd
  obtain ⟨c, hc, heq⟩ := List.mem_map.mp hmem
  obtain ⟨v, hv⟩ := ht c hc
  exact ⟨v, heq ▸ hv⟩

/-- Digits of the same values are read as the same bytes. -/
theorem toBytes?_congr {t u : Text} {bytes : Bytes} (ht : IsDigits t)
    (h : t.map CodePoint.hexValue? = u.map CodePoint.hexValue?) (hu : toBytes? u = some bytes) :
    toBytes? t = some bytes := by
  refine toBytes?_induction (P := fun u bytes => ∀ t : Text, IsDigits t →
    t.map CodePoint.hexValue? = u.map CodePoint.hexValue? → toBytes? t = some bytes)
    ?_ ?_ ?_ hu t ht h
  · intro t _ h
    rw [List.map_eq_nil_iff.mp h]
    rfl
  · -- a blank has no value, and every code point of the digits has one
    intro d u bytes hd _ _ t ht h
    obtain ⟨v, hv⟩ := isDigits_congr h ht d (by simp)
    rw [CodePoint.isAsciiSpace_of_hexValue? hv] at hd
    cases hd
  · intro d d' u high low bytes hd hd' _ ih t ht h
    match t with
    | [] => simp at h
    | [_] => simp at h
    | c :: c' :: t =>
      simp only [List.map_cons, List.cons.injEq] at h
      obtain ⟨hc, hc', h⟩ := h
      rw [toBytes?_pair (hc.trans hd) (hc'.trans hd'), ih t (fun e he => ht e (by simp [he])) h]
      rfl

/-- Digits in another letter case have the same values. -/
theorem map_hexValue?_of_toAsciiLower {digits : Text} {bytes : Bytes}
    (h : digits.toAsciiLower = Text.toAsciiLower (ofBytes bytes)) :
    digits.map CodePoint.hexValue? = (ofBytes bytes).map CodePoint.hexValue? := by
  rw [← map_hexValue?_toAsciiLower digits, h, map_hexValue?_toAsciiLower]

theorem isDigits_of_toAsciiLower {digits : Text} {bytes : Bytes}
    (h : digits.toAsciiLower = Text.toAsciiLower (ofBytes bytes)) : IsDigits digits :=
  isDigits_congr (map_hexValue?_of_toAsciiLower h).symm (isDigits_ofBytes bytes)

theorem read?_of_spells {t : Text} {bytes : Bytes} (h : Spells t bytes) : read? t = some bytes := by
  obtain ⟨mark, hmark, digits, rfl, hdigits⟩ := h
  have hisDigits := isDigits_of_toAsciiLower hdigits
  have hread : toBytes? digits = some bytes :=
    toBytes?_congr hisDigits (map_hexValue?_of_toAsciiLower hdigits) (toBytes?_ofBytes bytes)
  rw [read?, stripMark_append hmark (hasHexMark_of_isDigits hisDigits), hread]

/-! ### Pairs of digits -/

/-- Pairs of digits, with blanks before each pair and at the end, and the bytes that they write. -/
inductive Pairs : Text → Bytes → Prop where
  | nil : Pairs [] []
  | blank {c : CodePoint} {t : Text} {bytes : Bytes} (hc : c.isAsciiSpace = true)
      (rest : Pairs t bytes) : Pairs (c :: t) bytes
  | pair {c d : CodePoint} {t : Text} {high low : Nat} {bytes : Bytes} (hc : c.hexValue? = some high)
      (hd : d.hexValue? = some low) (rest : Pairs t bytes) :
      Pairs (c :: d :: t) ((high * 16 + low).toUInt8 :: bytes)

theorem toBytes?_eq_some_iff {t : Text} {bytes : Bytes} : toBytes? t = some bytes ↔ Pairs t bytes := by
  constructor
  · intro h
    exact toBytes?_induction .nil (fun _ _ _ hc _ ih => .blank hc ih)
      (fun _ _ _ _ _ _ hc hd _ ih => .pair hc hd ih) h
  · intro h
    induction h with
    | nil => rfl
    | blank hc _ ih => rw [toBytes?_blank hc, ih]
    | pair hc hd _ ih =>
      rw [toBytes?_pair hc hd, ih]
      rfl

theorem Pairs.hasHexMark {t : Text} {bytes : Bytes} (h : Pairs t bytes) : t.hasHexMark = false := by
  refine Text.hasHexMark_eq_false ?_
  induction h with
  | nil => nofun
  | blank hc _ ih =>
    refine List.forall_mem_cons.mpr ⟨?_, ih⟩
    constructor
    · rintro rfl
      cases hc
    · rintro rfl
      cases hc
  | pair hc hd _ ih =>
    exact List.forall_mem_cons.mpr
      ⟨ne_x_of_hexValue? hc, List.forall_mem_cons.mpr ⟨ne_x_of_hexValue? hd, ih⟩⟩

/-- Pairs of digits are read, behind a mark or without one, and nothing else. -/
theorem read?_eq_some_iff {t : Text} {bytes : Bytes} :
    read? t = some bytes ↔
      ∃ mark ∈ [([] : Text), "0x", "0X"], ∃ digits, t = mark ++ digits ∧ Pairs digits bytes := by
  constructor
  · intro h
    obtain ⟨mark, hmark, ht⟩ := exists_stripMark t
    exact ⟨mark, hmark, _, ht, toBytes?_eq_some_iff.mp h⟩
  · rintro ⟨mark, hmark, digits, rfl, h⟩
    rw [read?, stripMark_append hmark h.hasHexMark, toBytes?_eq_some_iff.mpr h]

/-- Blanks have no capitals. -/
theorem toUpper_of_isAsciiSpace {c : CodePoint} (h : c.isAsciiSpace = true) : c.toUpper = [c] := by
  simp only [CodePoint.isAsciiSpace, Bool.or_eq_true, Bool.and_eq_true, decide_eq_true_eq,
    beq_iff_eq] at h
  simp only [CodePoint.toUpper]
  rw [if_pos (by omega), if_neg (by omega)]

theorem Pairs.toUpper {t : Text} {bytes : Bytes} (h : Pairs t bytes) : Pairs t.toUpper bytes := by
  induction h with
  | nil => exact .nil
  | blank hc _ ih =>
    rw [toUpper_cons, toUpper_of_isAsciiSpace hc]
    exact .blank hc ih
  | pair hc hd _ ih =>
    rw [toUpper_cons, toUpper_cons, toUpper_of_hexValue? hc, toUpper_of_hexValue? hd]
    exact .pair (hexValue?_capitalDigit (CodePoint.hexValue?_lt hc))
      (hexValue?_capitalDigit (CodePoint.hexValue?_lt hd)) ih

/-- The capital form of a text that is read is read as the same bytes. -/
theorem read?_normalize {t : Text} {bytes : Bytes} (h : read? t = some bytes) :
    read? (normalize t) = some bytes := by
  have hpairs := Pairs.toUpper (toBytes?_eq_some_iff.mp h)
  exact read?_eq_some_iff.mpr ⟨[], List.mem_cons_self, _, rfl, hpairs⟩

/-- An address has forty digits, behind a mark or without one. -/
theorem isAddress_iff {t : Text} :
    isAddress t = true ↔
      ∃ mark ∈ [([] : Text), "0x", "0X"], ∃ digits, t = mark ++ digits ∧ digits.length = 40 ∧
        IsDigits digits := by
  have hcheck (digits : Text) : (digits.length == 40 && digits.all fun c => c.hexValue?.isSome) = true ↔
      digits.length = 40 ∧ IsDigits digits := by
    rw [Bool.and_eq_true, beq_iff_eq, List.all_eq_true]
    exact and_congr_right' (forall₂_congr fun c _ => Option.isSome_iff_exists)
  constructor
  · intro h
    obtain ⟨mark, hmark, ht⟩ := exists_stripMark t
    exact ⟨mark, hmark, _, ht, (hcheck _).mp h⟩
  · rintro ⟨mark, hmark, digits, rfl, h⟩
    rw [isAddress, stripMark_append hmark (hasHexMark_of_isDigits h.2)]
    exact (hcheck _).mpr h

theorem isAddress_of_spells {t : Text} {bytes : Bytes} (h : Spells t bytes)
    (hlength : bytes.length = 20) : isAddress t = true := by
  obtain ⟨mark, hmark, digits, rfl, hdigits⟩ := h
  refine isAddress_iff.mpr ⟨mark, hmark, digits, rfl, ?_, isDigits_of_toAsciiLower hdigits⟩
  have hsame := congrArg List.length hdigits
  rw [Text.toAsciiLower, Text.toAsciiLower, List.length_map, List.length_map, length_ofBytes,
    hlength] at hsame
  exact hsame

end Hex

end LedgerAbi
