/-
Numerals: the texts that spell integers.

* `Text.Digits` — the grammar of digits with single underscores between them;
* `Text.IsDecimal`, `Text.IsHexadecimal` — what else belongs to a numeral of either base:
  blanks around it, a sign, a mark;
* `Text.integer?_eq_some_iff` — just the numerals are read, each as the integer that it
  spells;
* `Text.ofNat_eq` and what follows it — the decimal digits of a number;
* `Text.isNumeral_ofInt`, `Text.isNumeral_mark_append` — the decimal text of an integer is a
  numeral of it, and so are hexadecimal digits behind a mark.

Design notes: the readers work from the left and keep a flag for underscores, while the
grammar knows no flag.  `digitsFrom?_eq_some_iff` therefore says for both flags what is left
to be read.  Blanks are cut off at both ends before that, and this gives back the numeral
because no digit and no sign is a blank.
-/
import LedgerAbi.Proofs.Text.Hexadecimal
import Mathlib.Data.List.Basic
import Mathlib.Data.List.Induction
import Mathlib.Data.List.TakeDrop
import Mathlib.Data.List.TakeWhile

namespace LedgerAbi

/-! ### Classes of code points -/

theorem eq_or_le_of_mem_decimalZeros {z : Nat} (h : z ∈ decimalZeros) : z = 0x30 ∨ 0x660 ≤ z := by
  revert z
  decide

namespace CodePoint

/-- In ASCII the decimal digits are the ten digits. -/
theorem decimalValue?_of_ascii {c : CodePoint} (h : c.toNat < 128) :
    c.decimalValue? = if 48 ≤ c.toNat ∧ c.toNat ≤ 57 then some (c.toNat - 48) else none := by
  by_cases hdigit : 48 ≤ c.toNat ∧ c.toNat ≤ 57
  · have hfirst : (decimalZeros.find? fun z => z ≤ c.toNat && c.toNat < z + 10) = some 0x30 := by
      rw [decimalZeros, List.find?_cons_of_pos]
      simp only [Bool.and_eq_true, decide_eq_true_eq]
      omega
    rw [if_pos hdigit]
    simp only [decimalValue?, hfirst, Option.map_some]
  · have hnone : (decimalZeros.find? fun z => z ≤ c.toNat && c.toNat < z + 10) = none := by
      rw [List.find?_eq_none]
      intro z hz
      simp only [Bool.and_eq_true, decide_eq_true_eq]
      rcases eq_or_le_of_mem_decimalZeros hz with rfl | hz
      · omega
      · omega
    rw [if_neg hdigit]
    simp only [decimalValue?, hnone, Option.map_none]

/-- A decimal digit of any script is no blank. -/
theorem isBlank_of_decimalValue? {c : CodePoint} {d : Nat} (h : c.decimalValue? = some d) :
    c.isBlank = false := by
  have hdigits : ∀ z ∈ decimalZeros, ∀ k < 10, (ofNat (z + k)).isBlank = false := by decide
  obtain ⟨z, hz, -⟩ := Option.map_eq_some_iff.mp h
  have hbounds := List.find?_some hz
  simp only [Bool.and_eq_true, decide_eq_true_eq] at hbounds
  have hc : ofNat (z + (c.toNat - z)) = c := by
    rw [Nat.add_sub_cancel' hbounds.1, ofNat_toNat]
  rw [← hc]
  exact hdigits z (List.mem_of_find?_eq_some hz) _ (by omega)

theorem base16Value?_toAsciiLower (c : CodePoint) : c.toAsciiLower.base16Value? = c.base16Value? := by
  by_cases hcapital : 65 ≤ c.toNat ∧ c.toNat ≤ 90
  · have hlower : c.toAsciiLower.toNat = c.toNat + 32 := by
      rw [toAsciiLower, if_pos hcapital]
      exact toNat_ofNat (by omega)
    rw [base16Value?, base16Value?, decimalValue?_of_ascii (by omega), decimalValue?_of_ascii (by omega),
      if_neg (by omega), if_neg (by omega), Hex.hexValue?_toAsciiLower]
  · rw [toAsciiLower, if_neg hcapital]

theorem isBlank_of_base16Value? {c : CodePoint} {d : Nat} (h : c.base16Value? = some d) :
    c.isBlank = false := by
  rw [base16Value?] at h
  cases hdecimal : c.decimalValue? with
  | some d' => exact isBlank_of_decimalValue? hdecimal
  | none =>
    rw [hdecimal] at h
    replace h : c.hexValue? = some d := h
    simp only [hexValue?] at h
    simp only [isBlank, isAsciiSpace, Bool.or_eq_false_iff, Bool.and_eq_false_iff,
      decide_eq_false_iff_not, beq_eq_false_iff_ne]
    split at h
    · omega
    · split at h
      · omega
      · split at h
        · omega
        · cases h

end CodePoint

namespace Text

/-! ### Cutting off blanks -/

theorem dropWhile_of_head? {p : CodePoint → Bool} {t : Text} (h : ∀ c ∈ t.head?, p c = false) :
    t.dropWhile p = t := by
  cases t with
  | nil => rfl
  | cons c rest =>
    rw [List.dropWhile_cons_of_neg]
    rw [h c rfl]
    exact Bool.false_ne_true

/-- What is cut off are code points of the class at both ends. -/
theorem exists_trim (t : Text) (p : CodePoint → Bool) :
    ∃ left right, t = left ++ t.trim p ++ right ∧ (∀ c ∈ left, p c = true) ∧
      ∀ c ∈ right, p c = true := by
  refine ⟨t.takeWhile p, ((t.dropWhile p).reverse.takeWhile p).reverse, ?_, ?_, ?_⟩
  · rw [trim, List.append_assoc, ← List.reverse_append, List.takeWhile_append_dropWhile,
      List.reverse_reverse, List.takeWhile_append_dropWhile]
  · exact fun c hc => List.mem_takeWhile_imp hc
  · exact fun c hc => List.mem_takeWhile_imp (List.mem_reverse.mp hc)

/-- A text that neither begins nor ends with a code point of the class is what is left. -/
theorem trim_append {p : CodePoint → Bool} {left s right : Text} (hleft : ∀ c ∈ left, p c = true)
    (hright : ∀ c ∈ right, p c = true) (hs : s ≠ []) (hhead : ∀ c ∈ s.head?, p c = false)
    (hlast : ∀ c ∈ s.getLast?, p c = false) : trim (left ++ s ++ right) p = s := by
  have hfront : ∀ c ∈ (s ++ right).head?, p c = false := by
    rwa [List.head?_append_of_ne_nil _ hs]
  have hback : ∀ c ∈ s.reverse.head?, p c = false := by
    rwa [List.head?_reverse]
  rw [trim, List.append_assoc, List.dropWhile_append_of_pos hleft, dropWhile_of_head? hfront,
    List.reverse_append, List.dropWhile_append_of_pos, dropWhile_of_head? hback, List.reverse_reverse]
  exact fun c hc => hright c (List.mem_reverse.mp hc)

/-! ### Digits -/

/-- Digits with single underscores between them, and their values. -/
inductive Digits (digit? : CodePoint → Option Nat) : Text → List Nat → Prop where
  | one {c : CodePoint} {d : Nat} (h : digit? c = some d) : Digits digit? [c] [d]
  | next {c : CodePoint} {d : Nat} {t : Text} {ds : List Nat} (h : digit? c = some d)
      (rest : Digits digit? t ds) : Digits digit? (c :: t) (d :: ds)
  | separated {c : CodePoint} {d : Nat} {t : Text} {ds : List Nat} (h : digit? c = some d)
      (rest : Digits digit? t ds) : Digits digit? (c :: .char '_' :: t) (d :: ds)

/-- The number that digits of a base write, most significant digit first. -/
def placeValue (base : Nat) (ds : List Nat) : Nat := ds.foldl (fun n d => n * base + d) 0

section Digits

variable {digit? : CodePoint → Option Nat}

theorem Digits.ne_nil {t : Text} {ds : List Nat} (h : Digits digit? t ds) : t ≠ [] := by
  cases h <;> exact List.cons_ne_nil _ _

theorem Digits.head? {t : Text} {ds : List Nat} (h : Digits digit? t ds) :
    ∃ c d, t.head? = some c ∧ digit? c = some d := by
  cases h with
  | one h => exact ⟨_, _, rfl, h⟩
  | next h _ => exact ⟨_, _, rfl, h⟩
  | separated h _ => exact ⟨_, _, rfl, h⟩

theorem Digits.getLast? {t : Text} {ds : List Nat} (h : Digits digit? t ds) :
    ∃ c d, t.getLast? = some c ∧ digit? c = some d := by
  induction h with
  | one h => exact ⟨_, _, rfl, h⟩
  | next _ rest ih =>
    obtain ⟨c, d, hc, hd⟩ := ih
    exact ⟨c, d, by rw [List.getLast?_cons_of_ne_nil rest.ne_nil, hc], hd⟩
  | separated _ rest ih =>
    obtain ⟨c, d, hc, hd⟩ := ih
    refine ⟨c, d, ?_, hd⟩
    rw [List.getLast?_cons_of_ne_nil (List.cons_ne_nil _ _),
      List.getLast?_cons_of_ne_nil rest.ne_nil, hc]

/-- After a digit comes nothing, the next digit, or an underscore and the next digit. -/
theorem digits_cons_iff {c : CodePoint} {d : Nat} (hc : digit? c = some d) {t : Text}
    {ds : List Nat} :
    Digits digit? (c :: t) ds ↔ ∃ rest, ds = d :: rest ∧ (t = [] ∧ rest = [] ∨
      Digits digit? t rest ∨ ∃ u, t = .char '_' :: u ∧ Digits digit? u rest) := by
  constructor
  · intro h
    cases h with
    | one h =>
      rw [hc] at h
      cases h
      exact ⟨[], rfl, Or.inl ⟨rfl, rfl⟩⟩
    | next h rest =>
      rw [hc] at h
      cases h
      exact ⟨_, rfl, Or.inr (Or.inl rest)⟩
    | separated h rest =>
      rw [hc] at h
      cases h
      exact ⟨_, rfl, Or.inr (Or.inr ⟨_, rfl, rest⟩)⟩
  · rintro ⟨rest, rfl, ⟨rfl, rfl⟩ | h | ⟨u, rfl, h⟩⟩
    · exact .one hc
    · exact .next hc h
    · exact .separated hc h

/-- The reader takes the digits of the grammar. After a digit it also takes nothing, or an underscore
before the digits. -/
theorem digitsFrom?_eq_some_iff (hseparator : digit? (.char '_') = none) {base value count : Nat}
    {afterDigit : Bool} {t : Text} {v n : Nat} :
    digitsFrom? digit? base value count afterDigit t = some (v, n) ↔
      (afterDigit = true ∧ t = [] ∧ v = value ∧ n = count) ∨
      ∃ ds, (Digits digit? t ds ∨
          afterDigit = true ∧ ∃ u, t = .char '_' :: u ∧ Digits digit? u ds) ∧
        v = ds.foldl (fun n d => n * base + d) value ∧ n = count + ds.length := by
  induction t generalizing value count afterDigit with
  | nil =>
    cases afterDigit with
    | true =>
      simp only [digitsFrom?, if_true, Option.some.injEq, Prod.mk.injEq, true_and]
      constructor
      · rintro ⟨rfl, rfl⟩
        exact Or.inl ⟨rfl, rfl⟩
      · rintro (⟨rfl, rfl⟩ | ⟨ds, hdigits | ⟨u, hu, -⟩, -⟩)
        · exact ⟨rfl, rfl⟩
        · exact absurd rfl hdigits.ne_nil
        · cases hu
    | false =>
      refine iff_of_false nofun ?_
      rintro (⟨h, -⟩ | ⟨ds, hdigits | ⟨h, -⟩, -⟩)
      · cases h
      · exact hdigits.ne_nil rfl
      · cases h
  | cons c rest ih =>
    by_cases hc : c = .char '_'
    · subst hc
      have hnone : ∀ ds, ¬ Digits digit? (.char '_' :: rest) ds := by
        intro ds hdigits
        obtain ⟨c, d, hhead, hd⟩ := hdigits.head?
        cases hhead
        rw [hseparator] at hd
        cases hd
      cases afterDigit with
      | true =>
        rw [digitsFrom?, if_pos rfl, if_pos rfl, ih]
        simp [hnone]
      | false =>
        rw [digitsFrom?, if_pos rfl, if_neg Bool.false_ne_true]
        simp [hnone]
    · rw [digitsFrom?, if_neg hc]
      cases hd : digit? c with
      | none =>
        refine iff_of_false nofun ?_
        rintro (⟨-, h, -⟩ | ⟨ds, hdigits | ⟨-, u, hu, -⟩, -⟩)
        · cases h
        · obtain ⟨c', d, hhead, hd'⟩ := hdigits.head?
          cases hhead
          rw [hd] at hd'
          cases hd'
        · cases hu
          exact hc rfl
      | some d =>
        simp only [ih, true_and, digits_cons_iff hd]
        constructor
        · rintro (⟨rfl, rfl, rfl⟩ | ⟨ds, hdigits, rfl, rfl⟩)
          · exact Or.inr ⟨[d], Or.inl ⟨[], rfl, Or.inl ⟨rfl, rfl⟩⟩, rfl, rfl⟩
          · refine Or.inr ⟨d :: ds, Or.inl ⟨ds, rfl, Or.inr hdigits⟩, rfl, ?_⟩
            rw [List.length_cons]
            omega
        · rintro (⟨-, h, -⟩ | ⟨ds, ⟨rest', rfl, h⟩ | ⟨-, u, hu, -⟩, rfl, rfl⟩)
          · cases h
          · rw [List.length_cons, List.foldl_cons]
            rcases h with ⟨rfl, rfl⟩ | h
            · exact Or.inl ⟨rfl, rfl, rfl⟩
            · exact Or.inr ⟨rest', h, rfl, by omega⟩
          · cases hu
            exact absurd rfl hc

/-- A text of digits alone is in the grammar. -/
theorem digits_of_map_eq {t : Text} {ds : List Nat} (h : t.map digit? = ds.map some) (ht : t ≠ []) :
    Digits digit? t ds := by
  induction t generalizing ds with
  | nil => exact absurd rfl ht
  | cons c rest ih =>
    cases ds with
    | nil => cases h
    | cons d ds =>
      rw [List.map_cons, List.map_cons, List.cons.injEq] at h
      cases rest with
      | nil =>
        rw [List.map_eq_nil_iff.mp h.2.symm]
        exact .one h.1
      | cons e rest => exact .next h.1 (ih h.2 (List.cons_ne_nil _ _))

/-- The digits of a number in a base have the values that write it. -/
theorem exists_map_toDigits {base : Nat} (hbase : 1 < base)
    (hdigit : ∀ d < base, digit? (.char d.digitChar) = some d) (n : Nat) :
    ∃ ds, ((Nat.toDigits base n).map CodePoint.char).map digit? = ds.map some ∧
      placeValue base ds = n := by
  induction n using Nat.strongRecOn with
  | ind n ih =>
    rw [Nat.toDigits_eq_if hbase]
    by_cases hn : n < base
    · rw [if_pos hn]
      refine ⟨[n], ?_, ?_⟩
      · rw [List.map_singleton, List.map_singleton, hdigit n hn]
        rfl
      · show 0 * base + n = n
        omega
    · rw [if_neg hn]
      obtain ⟨ds, hds, hvalue⟩ := ih (n / base) (Nat.div_lt_self (by omega) hbase)
      refine ⟨ds ++ [n % base], ?_, ?_⟩
      · rw [List.map_append, List.map_append, hds, List.map_append, List.map_singleton,
          List.map_singleton, hdigit _ (Nat.mod_lt n (by omega))]
        rfl
      · rw [placeValue, List.foldl_append]
        show placeValue base ds * base + n % base = n
        rw [hvalue, Nat.mul_comm]
        exact Nat.div_add_mod n base

end Digits

/-! ### Numerals -/

/-- A sign, or none, and whether it is negative. -/
inductive IsSign : Text → Bool → Prop where
  | minus : IsSign [.char '-'] true
  | plus : IsSign [.char '+'] false
  | none : IsSign [] false

/-- A numeral of base 10: blanks, a sign, digits, blanks. -/
inductive IsDecimal : Text → Int → Prop where
  | mk {left sign digits right : Text} {negative : Bool} {ds : List Nat}
      (hleft : ∀ c ∈ left, c.isBlank = true) (hsign : IsSign sign negative)
      (hdigits : Digits CodePoint.decimalValue? digits ds) (hcount : ds.length ≤ digitLimit)
      (hright : ∀ c ∈ right, c.isBlank = true) :
      IsDecimal (left ++ (sign ++ digits) ++ right) (signed negative (placeValue 10 ds))

/-- A numeral of base 16: a mark, an underscore or none, digits, blanks. -/
inductive IsHexadecimal : Text → Int → Prop where
  | mk {mark separator digits right : Text} {ds : List Nat} (hmark : IsMark mark)
      (hseparator : separator ∈ [[], [CodePoint.char '_']])
      (hdigits : Digits CodePoint.base16Value? digits ds) (hright : ∀ c ∈ right, c.isBlank = true) :
      IsHexadecimal (mark ++ (separator ++ digits ++ right)) (placeValue 16 ds)

/-- A text that spells an integer. One that begins with a mark is of base 16. -/
def IsNumeral (t : Text) (i : Int) : Prop := if t.hasHexMark then t.IsHexadecimal i else t.IsDecimal i

theorem exists_sign (t : Text) : ∃ s, IsSign s (sign t).1 ∧ t = s ++ (sign t).2 := by
  cases t with
  | nil => exact ⟨[], .none, rfl⟩
  | cons c rest =>
    by_cases hminus : c = .char '-'
    · rw [sign, if_pos hminus]
      exact ⟨[.char '-'], .minus, by rw [hminus]; rfl⟩
    · by_cases hplus : c = .char '+'
      · rw [sign, if_neg hminus, if_pos hplus]
        exact ⟨[.char '+'], .plus, by rw [hplus]; rfl⟩
      · rw [sign, if_neg hminus, if_neg hplus]
        exact ⟨[], .none, rfl⟩

theorem sign_append {s : Text} {negative : Bool} (hs : IsSign s negative) {t : Text}
    {ds : List Nat} (ht : Digits CodePoint.decimalValue? t ds) :
    sign (s ++ t) = (negative, t) := by
  cases hs with
  | minus => rfl
  | plus => rfl
  | none =>
    obtain ⟨c, d, hhead, hd⟩ := ht.head?
    cases t with
    | nil => cases hhead
    | cons _ rest =>
      cases hhead
      have hminus : c ≠ .char '-' := by
        rintro rfl
        cases hd
      have hplus : c ≠ .char '+' := by
        rintro rfl
        cases hd
      rw [List.nil_append, sign, if_neg hminus, if_neg hplus]

/-- Numerals of base 10 are read, and nothing else. -/
theorem decimal?_eq_some_iff {t : Text} {i : Int} : t.decimal? = some i ↔ t.IsDecimal i := by
  have hseparator : CodePoint.decimalValue? (.char '_') = none := rfl
  constructor
  · intro h
    simp only [decimal?] at h
    split at h
    · next value count hread =>
      split at h
      · next hcount =>
        cases h
        obtain ⟨left, right, ht, hleft, hright⟩ := exists_trim t CodePoint.isBlank
        obtain ⟨s, hs, hsplit⟩ := exists_sign (t.trim CodePoint.isBlank)
        rcases (digitsFrom?_eq_some_iff hseparator).mp hread with ⟨h, -⟩ | ⟨ds, hdigits, rfl, rfl⟩
        · cases h
        rcases hdigits with hdigits | ⟨h, -⟩
        · rw [Nat.zero_add] at hcount
          have hnumeral := IsDecimal.mk hleft hs hdigits hcount hright
          rwa [← hsplit, ← ht] at hnumeral
        · cases h
      · cases h
    · cases h
  · rintro ⟨hleft, hsign, hdigits, hcount, hright⟩
    rename_i left s digits right negative ds
    have hne : s ++ digits ≠ [] := List.append_ne_nil_of_right_ne_nil _ hdigits.ne_nil
    have hhead : ∀ c ∈ (s ++ digits).head?, c.isBlank = false := by
      intro c hc
      cases hsign with
      | minus => cases hc; rfl
      | plus => cases hc; rfl
      | none =>
        obtain ⟨c', d, hhead, hd⟩ := hdigits.head?
        rw [List.nil_append, hhead] at hc
        cases hc
        exact CodePoint.isBlank_of_decimalValue? hd
    have hlast : ∀ c ∈ (s ++ digits).getLast?, c.isBlank = false := by
      intro c hc
      obtain ⟨c', d, hlast, hd⟩ := hdigits.getLast?
      rw [List.getLast?_append_of_ne_nil _ hdigits.ne_nil, hlast] at hc
      cases hc
      exact CodePoint.isBlank_of_decimalValue? hd
    have hread : digitsFrom? CodePoint.decimalValue? 10 0 0 false digits =
        some (placeValue 10 ds, ds.length) :=
      (digitsFrom?_eq_some_iff hseparator).mpr
        (Or.inr ⟨ds, Or.inl hdigits, rfl, (Nat.zero_add _).symm⟩)
    simp only [decimal?, trim_append hleft hright hne hhead hlast, sign_append hsign hdigits, hread,
      if_pos hcount]

/-- No part of a mark is a blank, so blanks are cut off at the end only. -/
theorem exists_trim_mark {mark : Text} (hmark : IsMark mark) (u : Text) :
    ∃ s right, u = s ++ right ∧ (∀ c ∈ right, c.isBlank = true) ∧
      trim (mark ++ u) CodePoint.isBlank = mark ++ s := by
  obtain ⟨left, right, ht, hleft, hright⟩ := exists_trim (mark ++ u) CodePoint.isBlank
  -- a blank cannot be the first of the mark, nor one that is cut off be part of it
  have hnil : left = [] := by
    cases left with
    | nil => rfl
    | cons c left =>
      have hhead : (mark ++ u).head? = some c := by
        rw [ht]
        rfl
      rw [List.head?_append_of_ne_nil _ hmark.ne_nil] at hhead
      have hblank := hleft c List.mem_cons_self
      rw [hmark.isBlank c (List.mem_of_mem_head? hhead)] at hblank
      cases hblank
  rw [hnil, List.nil_append] at ht
  rcases List.append_eq_append_iff.mp ht with ⟨s, htrim, hu⟩ | ⟨s, hsplit, hu⟩
  · exact ⟨s, right, hu, hright, htrim⟩
  · cases s with
    | nil =>
      rw [List.append_nil] at hsplit
      exact ⟨[], right, hu.symm, hright, hsplit.symm.trans (List.append_nil _).symm⟩
    | cons c s =>
      have hblank := hright c (by rw [hu]; exact List.mem_cons_self)
      rw [hmark.isBlank c (by rw [hsplit]; exact List.mem_append_right _ List.mem_cons_self)] at hblank
      cases hblank

/-- What follows the underscore behind a mark, if there is one. -/
def afterSeparator : Text → Text
  | [] => []
  | c :: rest => if c = .char '_' then rest else c :: rest

theorem exists_separator (s : Text) :
    ∃ sep ∈ [[], [CodePoint.char '_']], s = sep ++ afterSeparator s := by
  cases s with
  | nil => exact ⟨[], by simp, rfl⟩
  | cons c rest =>
    by_cases hc : c = .char '_'
    · exact ⟨[.char '_'], by simp, by rw [afterSeparator, if_pos hc, hc]; rfl⟩
    · exact ⟨[], by simp, by rw [afterSeparator, if_neg hc]; rfl⟩

theorem afterSeparator_append {sep : Text} (hsep : sep ∈ [[], [CodePoint.char '_']]) {digits : Text}
    {ds : List Nat} (hdigits : Digits CodePoint.base16Value? digits ds) :
    afterSeparator (sep ++ digits) = digits := by
  simp only [List.mem_cons, List.not_mem_nil, or_false] at hsep
  rcases hsep with rfl | rfl
  · obtain ⟨c, d, hhead, hd⟩ := hdigits.head?
    cases digits with
    | nil => cases hhead
    | cons _ rest =>
      cases hhead
      have hc : c ≠ .char '_' := by
        rintro rfl
        cases hd
      rw [List.nil_append, afterSeparator, if_neg hc]
  · rfl

/-- A text that is a mark and more once blanks are cut off is read from there. -/
theorem hexadecimal?_of_trim {mark s t : Text} (hmark : IsMark mark)
    (ht : t.trim CodePoint.isBlank = mark ++ s) :
    t.hexadecimal? = (digitsFrom? CodePoint.base16Value? 16 0 0 false (afterSeparator s)).map
      fun (value, _) => Int.ofNat value := by
  rw [hexadecimal?, ht, ← hmark.length_eq, List.drop_left]
  cases s <;> rfl

/-- Numerals of base 16 are read, and nothing else that begins with a mark. -/
theorem hexadecimal?_eq_some_iff {t : Text} (ht : t.hasHexMark = true) {i : Int} :
    t.hexadecimal? = some i ↔ t.IsHexadecimal i := by
  have hunderscore : CodePoint.base16Value? (.char '_') = none := rfl
  constructor
  · intro h
    obtain ⟨mark, u, hmark, rfl⟩ := hasHexMark_iff.mp ht
    obtain ⟨s, right, rfl, hright, htrim⟩ := exists_trim_mark hmark u
    rw [hexadecimal?_of_trim hmark htrim] at h
    obtain ⟨⟨value, count⟩, hread, hi⟩ := Option.map_eq_some_iff.mp h
    cases hi
    obtain ⟨sep, hsep, hs⟩ := exists_separator s
    rcases (digitsFrom?_eq_some_iff hunderscore).mp hread with
      ⟨hflag, -⟩ | ⟨ds, hdigits | ⟨hflag, -⟩, rfl, -⟩
    · cases hflag
    · rw [hs]
      exact .mk hmark hsep hdigits hright
    · cases hflag
  · rintro ⟨hmark, hsep, hdigits, hright⟩
    rename_i mark sep digits right ds
    have hread : digitsFrom? CodePoint.base16Value? 16 0 0 false digits =
        some (placeValue 16 ds, ds.length) :=
      (digitsFrom?_eq_some_iff hunderscore).mpr
        (Or.inr ⟨ds, Or.inl hdigits, rfl, (Nat.zero_add _).symm⟩)
    have hne : mark ++ (sep ++ digits) ≠ [] :=
      List.append_ne_nil_of_right_ne_nil _ (List.append_ne_nil_of_right_ne_nil _ hdigits.ne_nil)
    have hhead : ∀ c ∈ (mark ++ (sep ++ digits)).head?, c.isBlank = false := by
      intro c hc
      rw [List.head?_append_of_ne_nil _ hmark.ne_nil] at hc
      exact hmark.isBlank c (List.mem_of_mem_head? hc)
    have hlast : ∀ c ∈ (mark ++ (sep ++ digits)).getLast?, c.isBlank = false := by
      intro c hc
      obtain ⟨_, d, hlast, hd⟩ := hdigits.getLast?
      rw [← List.append_assoc, List.getLast?_append_of_ne_nil _ hdigits.ne_nil, hlast] at hc
      cases hc
      exact CodePoint.isBlank_of_base16Value? hd
    have htrim : trim ([] ++ (mark ++ (sep ++ digits)) ++ right) CodePoint.isBlank =
        mark ++ (sep ++ digits) := trim_append (by simp) hright hne hhead hlast
    rw [List.nil_append, List.append_assoc] at htrim
    rw [hexadecimal?_of_trim hmark htrim, afterSeparator_append hsep hdigits, hread]
    rfl

/-- **Just the numerals are read**, each as the integer that it spells. -/
theorem integer?_eq_some_iff {t : Text} {i : Int} : t.integer? = some i ↔ t.IsNumeral i := by
  rw [integer?, IsNumeral]
  split
  · next hmark => exact hexadecimal?_eq_some_iff hmark
  · exact decimal?_eq_some_iff

/-! ### Decimal texts of numbers -/

theorem ofNat_eq (n : Nat) : ofNat n = (Nat.toDigits 10 n).map .char := by
  rw [ofNat, ofString, Nat.toString_eq_repr, Nat.toList_repr]

theorem isAsciiDigit_of_mem_ofNat {n : Nat} {c : CodePoint} (h : c ∈ ofNat n) :
    c.isAsciiDigit = true := by
  rw [ofNat_eq] at h
  obtain ⟨d, hd, rfl⟩ := List.mem_map.mp h
  have hdigit := Nat.isDigit_of_mem_toDigits (by decide) (by decide) hd
  rw [Char.isDigit, Bool.and_eq_true, decide_eq_true_eq, decide_eq_true_eq] at hdigit
  rw [CodePoint.isAsciiDigit, Bool.and_eq_true, decide_eq_true_eq, decide_eq_true_eq]
  exact ⟨UInt32.le_iff_toNat_le.mp hdigit.1, UInt32.le_iff_toNat_le.mp hdigit.2⟩

theorem isAsciiLetter_of_isAsciiDigit {c : CodePoint} (h : c.isAsciiDigit = true) :
    c.isAsciiLetter = false := by
  simp only [CodePoint.isAsciiDigit, Bool.and_eq_true, decide_eq_true_eq] at h
  simp only [CodePoint.isAsciiLetter, Bool.or_eq_false_iff, Bool.and_eq_false_iff,
    decide_eq_false_iff_not]
  omega

theorem ofNat_ne_nil (n : Nat) : ofNat n ≠ [] := by
  rw [ofNat_eq, ne_eq, List.map_eq_nil_iff]
  exact Nat.toDigits_ne_nil

/-- The digits of a number write this number. -/
theorem foldl_ofNat (n : Nat) : (ofNat n).foldl (fun n c => n * 10 + (c.toNat - 48)) 0 = n := by
  have hvalue := Nat.ofDigitChars_ten_toDigits (n := n)
  rw [Nat.ofDigitChars_eq_foldl] at hvalue
  rw [ofNat_eq, List.foldl_map]
  simp only [Nat.mul_comm _ 10]
  exact hvalue

/-- A positive number is written without zeros in front. -/
theorem head?_ofNat {n : Nat} (h : 0 < n) : (ofNat n).head? ≠ some (.char '0') := by
  induction n using Nat.strongRecOn with
  | ind n ih =>
    rw [ofNat_eq, Nat.toDigits_eq_if (by decide)]
    by_cases hn : n < 10
    · rw [if_pos hn]
      intro hzero
      have hdigit : n.digitChar = '0' := by simpa using hzero
      rw [Nat.digitChar_eq_zero] at hdigit
      omega
    · rw [if_neg hn, List.map_append, ← ofNat_eq, List.head?_append_of_ne_nil _ (ofNat_ne_nil _)]
      exact ih (n / 10) (by omega) (by omega)

/-- A digit is what the number that it stands for is written with. -/
theorem char_digitChar_of_isAsciiDigit {c : CodePoint} (h : c.isAsciiDigit = true) :
    CodePoint.char (c.toNat - 48).digitChar = c := by
  simp only [CodePoint.isAsciiDigit, Bool.and_eq_true, decide_eq_true_eq] at h
  refine CodePoint.toNat_inj ?_
  have hdigit := Nat.toNat_digitChar_of_lt_ten (n := c.toNat - 48) (by omega)
  rw [CodePoint.toNat, hdigit]
  omega

/-- Digits without a zero in front are how the number that they write is written. -/
theorem ofNat_foldl {ds : Text} (hdigits : ∀ c ∈ ds, c.isAsciiDigit = true) (hne : ds ≠ [])
    (hhead : ds.head? ≠ some (.char '0')) :
    ofNat (ds.foldl (fun n c => n * 10 + (c.toNat - 48)) 0) = ds := by
  induction ds using List.reverseRecOn with
  | nil => exact absurd rfl hne
  | append_singleton init c ih =>
    have hc := hdigits c (List.mem_append_right _ List.mem_cons_self)
    have hlast := char_digitChar_of_isAsciiDigit hc
    simp only [CodePoint.isAsciiDigit, Bool.and_eq_true, decide_eq_true_eq] at hc
    rw [List.foldl_append, List.foldl_cons, List.foldl_nil]
    by_cases hinit : init = []
    · rw [hinit, List.foldl_nil, ofNat_eq, Nat.toDigits_eq_if (by decide), if_pos (by omega),
        Nat.zero_mul, Nat.zero_add, List.map_singleton, hlast, List.nil_append]
    · rw [List.head?_append_of_ne_nil _ hinit] at hhead
      have hread := ih (fun d hd => hdigits d (List.mem_append_left _ hd)) hinit hhead
      generalize init.foldl (fun n c => n * 10 + (c.toNat - 48)) 0 = value at hread ⊢
      -- otherwise what stands before the last digit would be a zero
      have hpos : value ≠ 0 := by
        rintro rfl
        rw [← hread] at hhead
        exact hhead rfl
      have hdiv : (value * 10 + (c.toNat - 48)) / 10 = value := by omega
      have hmod : (value * 10 + (c.toNat - 48)) % 10 = c.toNat - 48 := by omega
      rw [ofNat_eq, Nat.toDigits_eq_if (by decide), if_neg (by omega), hdiv, hmod, List.map_append,
        ← ofNat_eq, hread, List.map_singleton, hlast]

theorem length_ofNat_le_iff (n : Nat) :
    (ofNat n).length ≤ digitLimit ↔ exceedsDigitLimit n = false := by
  rw [ofNat_eq, List.length_map, Nat.length_toDigits_le_iff (by decide) (by decide),
    exceedsDigitLimit, decide_eq_false_iff_not, Int.natAbs_natCast, Nat.not_le]

/-! ### Numerals of given integers -/

/-- A text of a sign and digits has no mark. -/
theorem hasHexMark_ofInt (i : Int) : (ofInt i).hasHexMark = false := by
  have hdigits : ∀ n, ∀ c ∈ ofNat n, c ≠ .char 'x' ∧ c ≠ .char 'X' := by
    intro n c hc
    have hdigit := isAsciiDigit_of_mem_ofNat hc
    constructor
    · rintro rfl
      cases hdigit
    · rintro rfl
      cases hdigit
  cases i with
  | ofNat n => exact hasHexMark_eq_false (hdigits n)
  | negSucc n =>
    refine hasHexMark_eq_false fun c hc => ?_
    rcases List.mem_cons.mp hc with rfl | hc
    · decide
    · exact hdigits _ c hc

theorem isDecimal_append_ofNat {s : Text} {negative : Bool} (hs : IsSign s negative) {n : Nat}
    (hn : n < 10 ^ digitLimit) : IsDecimal (s ++ ofNat n) (signed negative n) := by
  have hdigit : ∀ d < 10, CodePoint.decimalValue? (.char d.digitChar) = some d := by decide
  obtain ⟨ds, hds, hvalue⟩ := exists_map_toDigits (by decide) hdigit n
  have hcount : ds.length ≤ digitLimit := by
    have hlength := congrArg List.length hds
    simp only [List.length_map] at hlength
    rw [← hlength]
    exact (Nat.length_toDigits_le_iff (by decide) (by decide)).mpr hn
  rw [← ofNat_eq] at hds
  have h : IsDecimal ([] ++ (s ++ ofNat n) ++ []) (signed negative (placeValue 10 ds)) :=
    .mk (by simp) hs (digits_of_map_eq hds (ofNat_ne_nil n)) hcount (by simp)
  rwa [List.nil_append, List.append_nil, hvalue] at h

/-- The decimal text of an integer is a numeral of it, if it is not too long. -/
theorem isNumeral_ofInt {i : Int} (hi : i.natAbs < 10 ^ digitLimit) : (ofInt i).IsNumeral i := by
  rw [IsNumeral, hasHexMark_ofInt, if_neg Bool.false_ne_true]
  cases i with
  | ofNat n => exact isDecimal_append_ofNat .none hi
  | negSucc n => exact isDecimal_append_ofNat .minus hi

/-- The hexadecimal digits of a number, in small letters. -/
def hexadecimalOfNat (n : Nat) : Text := (Nat.toDigits 16 n).map .char

/-- Behind a mark the hexadecimal digits of a number are a numeral of it, whatever the letter case. -/
theorem isNumeral_mark_append {mark digits : Text} (hmark : IsMark mark) {n : Nat}
    (hdigits : digits.toAsciiLower = hexadecimalOfNat n) : (mark ++ digits).IsNumeral n := by
  have hdigit : ∀ d < 16, CodePoint.base16Value? (.char d.digitChar) = some d := by decide
  obtain ⟨ds, hds, hvalue⟩ := exists_map_toDigits (by decide) hdigit n
  have hne : digits ≠ [] := by
    rintro rfl
    exact Nat.toDigits_ne_nil (List.map_eq_nil_iff.mp hdigits.symm)
  have hmap : digits.map CodePoint.base16Value? = ds.map some := by
    rw [← hds, ← hexadecimalOfNat, ← hdigits, toAsciiLower, List.map_map]
    exact List.map_congr_left fun c _ => (CodePoint.base16Value?_toAsciiLower c).symm
  rw [IsNumeral, if_pos (hasHexMark_iff.mpr ⟨mark, digits, hmark, rfl⟩)]
  have h : IsHexadecimal (mark ++ ([] ++ digits ++ [])) (placeValue 16 ds) :=
    .mk hmark (by simp) (digits_of_map_eq hmap hne) (by simp)
  rwa [List.nil_append, List.append_nil, hvalue] at h

end Text

end LedgerAbi
