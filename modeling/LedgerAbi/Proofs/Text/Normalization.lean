/-
The ledger's form of a text and the bytes that the text stands for.

* `Hex.toBytes?_toUpper` — a text in capitals is read as the text itself with every ligature of two f
  written out, since no other letter beyond ASCII has digits for its capitals;
* `Hex.KeepsMeaning` — the ledger's form of a text is a form of its own, and is read as the text is;
* `Hex.Misleads` — the texts that lose a second mark, or that become digits only in capitals;
* `Hex.keepsMeaning_iff` — every text keeps its meaning but these, none of which is hexadecimal.

Design notes: the reader of pairs looks at a code point for two things only, whether it is a blank and
which digit it is (`Hex.role`).  Two texts with the same roles are read alike, whatever their letters.
-/
import Mathlib.Logic.Function.Iterate
import LedgerAbi.WireText
import LedgerAbi.Proofs.Text.Capital

namespace LedgerAbi.Hex

/-! ### What a reader sees -/

/-- A blank, or a digit with its value. -/
def role (c : CodePoint) : Bool × Option Nat := (c.isAsciiSpace, c.hexValue?)

/-- The code points that a reader takes. -/
def IsLegible (c : CodePoint) : Prop := c.isAsciiSpace = true ∨ ∃ v, c.hexValue? = some v

/-- Texts whose code points have the same roles are read alike. -/
theorem toBytes?_eq_of_map_role {t u : Text} (h : t.map role = u.map role) :
    toBytes? t = toBytes? u := by
  fun_induction toBytes? t generalizing u with
  | case1 =>
    rw [List.map_eq_nil_iff.mp h.symm]
    rfl
  | case2 c rest hc ih =>
    obtain ⟨d, rest', rfl, hd, hrest⟩ := List.map_eq_cons_iff.mp h.symm
    rw [toBytes?_blank ((Prod.mk.inj hd).1.trans hc), ih hrest.symm]
  | case3 c hc =>
    obtain ⟨d, rest', rfl, hd, hrest⟩ := List.map_eq_cons_iff.mp h.symm
    rw [List.map_eq_nil_iff.mp hrest, toBytes?, (Prod.mk.inj hd).1, if_neg hc]
  | case4 c hc d rest ih =>
    obtain ⟨c', rest', rfl, hfirst, hrest⟩ := List.map_eq_cons_iff.mp h.symm
    obtain ⟨d', rest', rfl, hsecond, hrest⟩ := List.map_eq_cons_iff.mp hrest
    obtain ⟨hblank, hhigh⟩ := Prod.mk.inj hfirst
    rw [toBytes?, hblank, if_neg hc, hhigh, (Prod.mk.inj hsecond).2, ih hrest.symm]

theorem Pairs.isLegible {t : Text} {bytes : Bytes} (h : Pairs t bytes) : ∀ c ∈ t, IsLegible c := by
  induction h with
  | nil => nofun
  | blank hc _ ih => exact List.forall_mem_cons.mpr ⟨Or.inl hc, ih⟩
  | pair hc hd _ ih =>
    exact List.forall_mem_cons.mpr
      ⟨Or.inr ⟨_, hc⟩, List.forall_mem_cons.mpr ⟨Or.inr ⟨_, hd⟩, ih⟩⟩

theorem toBytes?_eq_none {t : Text} {c : CodePoint} (hmem : c ∈ t) (hc : ¬ IsLegible c) :
    toBytes? t = none :=
  Option.eq_none_iff_forall_ne_some.mpr fun _ h =>
    hc ((toBytes?_eq_some_iff.mp h).isLegible c hmem)

/-! ### Capitals of digits -/

/-- The ligature of two f, whose capitals are two digits. -/
def ligature : CodePoint := .char '\uFB00'

/-- The text with every ligature of two f written out. -/
def spellOut (t : Text) : Text := t.flatMap fun c => if c = ligature then "FF" else [c]

theorem spellOut_eq_self {t : Text} (h : ligature ∉ t) : spellOut t = t := by
  have hself : ∀ c ∈ t, (if c = ligature then ("FF" : Text) else [c]) = [c] := by
    intro c hc
    rw [if_neg]
    rintro rfl
    exact h hc
  rw [spellOut, List.flatMap_congr hself, List.flatMap_singleton']

theorem not_isLegible_ligature : ¬ IsLegible ligature := by
  rintro (h | ⟨v, h⟩)
  · cases h
  · cases h

/-- A blank or a digit has one capital, of the same role. -/
theorem map_role_toUpper {c : CodePoint} (h : IsLegible c) : c.toUpper.map role = [role c] := by
  rcases h with h | ⟨v, h⟩
  · rw [toUpper_of_isAsciiSpace h, List.map_singleton]
  · have hcapital := hexValue?_capitalDigit (CodePoint.hexValue?_lt h)
    rw [toUpper_of_hexValue? h, List.map_singleton, role, role, hcapital, h,
      CodePoint.isAsciiSpace_of_hexValue? hcapital, CodePoint.isAsciiSpace_of_hexValue? h]

/-- A code point with nothing but blanks and digits in its capital form is one itself, or the
ligature. -/
theorem isLegible_of_toUpper {c : CodePoint} (h : ∀ d ∈ c.toUpper, IsLegible d) :
    IsLegible c ∨ c = ligature := by
  have hsequences : ∀ letter ∈ capitalSequences, letter.1 = ligature.toNat ∨ ∃ n ∈ letter.2,
      (CodePoint.ofNat n).isAsciiSpace = false ∧ (CodePoint.ofNat n).hexValue? = none := by
    decide +kernel
  have hform := CodePoint.capitalForm_toUpper c
  generalize c.toUpper = form at h hform
  cases hform with
  | own => exact Or.inl (h c List.mem_cons_self)
  | ascii hc =>
    have hcapital := h _ List.mem_cons_self
    rw [IsLegible, CodePoint.isAsciiSpace, CodePoint.hexValue?,
      CodePoint.toNat_ofNat (by omega)] at hcapital
    have hletter : c.toNat ≤ 102 := by
      by_contra hlarge
      rcases hcapital with hblank | ⟨v, hdigit⟩
      · simp only [Bool.or_eq_true, Bool.and_eq_true, decide_eq_true_eq, beq_iff_eq] at hblank
        omega
      · rw [if_neg (by omega), if_neg (by omega), if_neg (by omega)] at hdigit
        cases hdigit
    refine Or.inl (Or.inr ⟨c.toNat - 87, ?_⟩)
    rw [CodePoint.hexValue?, if_neg (by omega), if_neg (by omega), if_pos (by omega)]
  | sequence hc =>
    rcases hsequences _ hc with hligature | ⟨n, hn, hblank, hdigit⟩
    · exact Or.inr (CodePoint.toNat_inj hligature)
    · rcases h _ (List.mem_map_of_mem hn) with hn | ⟨v, hn⟩
      · exact absurd (hblank.symm.trans hn) Bool.false_ne_true
      · rw [hdigit] at hn
        cases hn
  | run hrun hc =>
    -- the capitals of runs lie beyond the digits
    obtain ⟨hnumber, hletter⟩ := CodePoint.toNat_capital hrun hc
    have hcapital := h _ List.mem_cons_self
    rw [IsLegible, CodePoint.isAsciiSpace, CodePoint.hexValue?, hnumber] at hcapital
    rcases hcapital with hblank | ⟨v, hdigit⟩
    · simp only [Bool.or_eq_true, Bool.and_eq_true, decide_eq_true_eq, beq_iff_eq] at hblank
      omega
    · rw [if_neg (by omega), if_neg (by omega), if_neg (by omega)] at hdigit
      cases hdigit

/-- A text in capitals is read as the text with its ligatures written out. -/
theorem toBytes?_toUpper (t : Text) : toBytes? t.toUpper = toBytes? (spellOut t) := by
  by_cases h : ∀ c ∈ t, IsLegible c ∨ c = ligature
  · refine toBytes?_eq_of_map_role ?_
    rw [Text.toUpper, spellOut, List.map_flatMap, List.map_flatMap]
    refine List.flatMap_congr fun c hc => ?_
    by_cases hligature : c = ligature
    · rw [hligature]
      rfl
    · rw [map_role_toUpper ((h c hc).resolve_right hligature), if_neg hligature, List.map_singleton]
  · -- what is neither is read in neither text
    push Not at h
    obtain ⟨c, hc, hlegible, hligature⟩ := h
    obtain ⟨d, hd, hcapital⟩ : ∃ d ∈ c.toUpper, ¬ IsLegible d := by
      by_contra hnone
      push Not at hnone
      exact (isLegible_of_toUpper hnone).elim hlegible hligature
    have hupper : d ∈ t.toUpper := List.mem_flatMap.mpr ⟨c, hc, hd⟩
    have hspelled : c ∈ spellOut t :=
      List.mem_flatMap.mpr ⟨c, hc, by rw [if_neg hligature]; exact List.mem_singleton_self c⟩
    rw [toBytes?_eq_none hupper hcapital, toBytes?_eq_none hspelled hlegible]

/-! ### Marks in capitals -/

theorem stripMark_mark {mark : Text} (h : Text.IsMark mark) (u : Text) : stripMark (mark ++ u) = u := by
  rw [stripMark, if_pos (Text.hasHexMark_iff.mpr ⟨mark, u, h, rfl⟩), ← h.length_eq, List.drop_left]

theorem stripMark_of_not_marked {t : Text} (h : t.hasHexMark = false) : stripMark t = t :=
  stripMark_append List.mem_cons_self h

theorem toUpper_append (t u : Text) : Text.toUpper (t ++ u) = t.toUpper ++ u.toUpper :=
  List.flatMap_append

theorem toUpper_mark {mark : Text} (h : Text.IsMark mark) : mark.toUpper = "0X" := by
  revert mark
  unfold Text.IsMark
  decide

/-- The first code point of a text in capitals, if it is one of a mark. -/
theorem exists_cons_of_toUpper {t v : Text} {d : CodePoint} (h : t.toUpper = d :: v)
    (hd : d = .char '0' ∨ d = .char 'X') :
    ∃ (c : CodePoint) (u : Text), t = c :: u ∧ u.toUpper = v ∧
      (c = d ∨ (d = .char 'X' ∧ c = .char 'x')) := by
  match t with
  | [] => cases h
  | c :: u =>
    obtain ⟨e, rest, hrest⟩ := List.exists_cons_of_ne_nil (CodePoint.toUpper_ne_nil c)
    rw [toUpper_cons, hrest] at h
    obtain ⟨rfl, hv⟩ := List.cons.inj h
    have hc := CodePoint.eq_of_mem_toUpper (hrest ▸ List.mem_cons_self) hd
    have hsingle : c.toUpper = [e] := by
      rcases hc with rfl | ⟨rfl, rfl⟩
      · exact CodePoint.toUpper_of_mem (hrest ▸ List.mem_cons_self)
      · rfl
    obtain ⟨-, rfl⟩ := List.cons.inj (hrest.symm.trans hsingle)
    exact ⟨c, u, rfl, hv, hc⟩

/-- Capitalising neither makes nor removes a mark. -/
theorem hasHexMark_toUpper (t : Text) : t.toUpper.hasHexMark = t.hasHexMark := by
  rw [Bool.eq_iff_iff, Text.hasHexMark_iff, Text.hasHexMark_iff]
  constructor
  · rintro ⟨mark, v, hmark, h⟩
    have hcapital : mark = "0X" := by
      have hlarge : ∀ mark ∈ [("0x" : Text), "0X"], mark = "0X" ∨ .char 'x' ∈ mark := by decide
      refine (hlarge mark hmark).resolve_right fun hx => ?_
      obtain ⟨c, -, hc⟩ := List.mem_flatMap.mp (h ▸ List.mem_append_left v hx)
      exact absurd (CodePoint.toUpper_of_mem hc) (by decide)
    have hcons : t.toUpper = .char '0' :: .char 'X' :: v := h.trans (hcapital ▸ rfl)
    obtain ⟨c, u, rfl, hu, hc⟩ := exists_cons_of_toUpper hcons (Or.inl rfl)
    obtain ⟨c', u', rfl, -, hc'⟩ := exists_cons_of_toUpper hu (Or.inr rfl)
    obtain rfl := hc.resolve_right fun h => absurd h.1 (by decide)
    rcases hc' with rfl | ⟨-, rfl⟩
    · exact ⟨"0X", u', List.mem_cons_of_mem _ List.mem_cons_self, rfl⟩
    · exact ⟨"0x", u', List.mem_cons_self, rfl⟩
  · rintro ⟨mark, u, hmark, rfl⟩
    exact ⟨"0X", u.toUpper, List.mem_cons_of_mem _ List.mem_cons_self, by
      rw [toUpper_append, toUpper_mark hmark]⟩

/-! ### Meaning -/

/-- The ledger's form of a text is its own form. It is read as the same bytes as the text, or is refused
with it, and so are the form with a mark and what comes of normalising any number of times. -/
structure KeepsMeaning (t : Text) : Prop where
  stable : ((Value.text t).wireHex >>= fun u => (Value.text u).wireHex) = (Value.text t).wireHex
  read : ((Value.text t).wireHex >>= fun u => (Value.text u).hexBytes) = (Value.text t).hexBytes
  readMarked :
    (WireText.prefixed (.text t) >>= fun u => (Value.text u).hexBytes) = (Value.text t).hexBytes
  readRepeated : ∀ n, (Value.text (normalize^[n] t)).hexBytes = (Value.text t).hexBytes

/-- The texts whose capital form without a mark says more than they do. -/
inductive Misleads : Text → Prop
  | markedTwice {mark again : Text} (hmark : Text.IsMark mark) (hagain : Text.IsMark again)
      (rest : Text) : Misleads (mark ++ (again ++ rest))
  | hidesDigits {mark digits : Text} {bytes : Bytes} (hmark : mark ∈ [([] : Text), "0x", "0X"])
      (hmem : ligature ∈ digits) (h : Pairs (spellOut digits) bytes) : Misleads (mark ++ digits)

/-- Ligatures hide no mark. -/
theorem hasHexMark_of_spellOut {t : Text} {bytes : Bytes} (h : Pairs (spellOut t) bytes) :
    t.hasHexMark = false := by
  rw [← hasHexMark_toUpper]
  exact (toBytes?_eq_some_iff.mp
    ((toBytes?_toUpper t).trans (toBytes?_eq_some_iff.mpr h))).hasHexMark

theorem misleads_iff {t : Text} :
    Misleads t ↔ (stripMark t).hasHexMark = true ∨
      (ligature ∈ stripMark t ∧ ∃ bytes, Pairs (spellOut (stripMark t)) bytes) := by
  constructor
  · rintro (⟨hmark, hagain, rest⟩ | ⟨hmark, hmem, h⟩)
    · rw [stripMark_mark hmark]
      exact Or.inl (Text.hasHexMark_iff.mpr ⟨_, rest, hagain, rfl⟩)
    · rw [stripMark_append hmark (hasHexMark_of_spellOut h)]
      exact Or.inr ⟨hmem, _, h⟩
  · rintro (h | ⟨hmem, bytes, h⟩)
    · by_cases hmarked : t.hasHexMark = true
      · obtain ⟨mark, u, hmark, rfl⟩ := Text.hasHexMark_iff.mp hmarked
        rw [stripMark_mark hmark] at h
        obtain ⟨again, rest, hagain, rfl⟩ := Text.hasHexMark_iff.mp h
        exact .markedTwice hmark hagain rest
      · rw [stripMark, if_neg hmarked] at h
        exact absurd h hmarked
    · obtain ⟨mark, hmark, ht⟩ := exists_stripMark t
      rw [ht]
      exact .hidesDigits hmark hmem h

/-- No text that misleads is hexadecimal. -/
theorem Misleads.read?_eq_none {t : Text} (h : Misleads t) : read? t = none := by
  rcases misleads_iff.mp h with hmarked | ⟨hmem, -⟩
  · refine Option.eq_none_iff_forall_ne_some.mpr fun _ hread => ?_
    rw [(toBytes?_eq_some_iff.mp hread).hasHexMark] at hmarked
    cases hmarked
  · exact toBytes?_eq_none hmem not_isLegible_ligature

theorem hexBytes_text_eq_iff {t u : Text} :
    (Value.text t).hexBytes = (Value.text u).hexBytes ↔ read? t = read? u := by
  rw [Value.hexBytes, Value.hexBytes]
  cases read? t <;> cases read? u <;> simp

/-- Writing ligatures out matters only where the text then reads as pairs of digits. -/
theorem toBytes?_spellOut_iff {t : Text} :
    toBytes? (spellOut t) = toBytes? t ↔ ¬(ligature ∈ t ∧ ∃ bytes, Pairs (spellOut t) bytes) := by
  by_cases hmem : ligature ∈ t
  · rw [toBytes?_eq_none hmem not_isLegible_ligature, Option.eq_none_iff_forall_ne_some]
    simp only [hmem, true_and, not_exists, ne_eq, toBytes?_eq_some_iff]
  · rw [spellOut_eq_self hmem]
    exact iff_of_true rfl fun h => hmem h.1

/-- A text without a second mark, whose ligatures do not matter, keeps its meaning. -/
theorem keepsMeaning_of_toBytes? {t : Text} (hmark : (stripMark t).hasHexMark = false)
    (hread : toBytes? (spellOut (stripMark t)) = toBytes? (stripMark t)) : KeepsMeaning t := by
  have hmark' : (normalize t).hasHexMark = false := (hasHexMark_toUpper _).trans hmark
  have hstrip : stripMark (normalize t) = normalize t := stripMark_of_not_marked hmark'
  have hstable : normalize (normalize t) = normalize t := by
    rw [normalize, hstrip, normalize, Text.toUpper_toUpper]
  have hbytes : toBytes? (normalize t) = read? t := (toBytes?_toUpper _).trans hread
  have hnormalized : read? (normalize t) = read? t := by rw [read?, hstrip, hbytes]
  refine ⟨congrArg Except.ok hstable, hexBytes_text_eq_iff.mpr hnormalized, ?_, ?_⟩
  · refine hexBytes_text_eq_iff.mpr ?_
    rw [withMark, if_neg (Bool.eq_false_iff.mp hmark'), read?,
      stripMark_mark (show Text.IsMark "0x" from List.mem_cons_self), hbytes]
  · intro n
    cases n with
    | zero => rfl
    | succ n =>
      rw [Function.iterate_succ_apply, Function.iterate_fixed hstable]
      exact hexBytes_text_eq_iff.mpr hnormalized

/-- A text with a second mark loses it when it is normalised again. -/
theorem KeepsMeaning.hasHexMark {t : Text} (h : KeepsMeaning t) : (stripMark t).hasHexMark = false := by
  refine Bool.eq_false_iff.mpr fun hmarked => ?_
  obtain ⟨mark, u, hmark, hu⟩ := Text.hasHexMark_iff.mp hmarked
  have hform : normalize t = "0X" ++ u.toUpper := by
    rw [normalize, hu, toUpper_append, toUpper_mark hmark]
  have hagain : normalize (normalize t) = u.toUpper := by
    rw [hform, normalize, stripMark_mark (List.mem_cons_of_mem _ List.mem_cons_self),
      Text.toUpper_toUpper]
  have hlength := congrArg List.length
    ((hagain.symm.trans (Except.ok.inj h.stable)).trans hform)
  rw [List.length_append, show ("0X" : Text).length = 2 from rfl] at hlength
  omega

/-- **A text keeps its meaning when it is normalised, unless it misleads.**  The texts that do are those
with two marks, of which each normalising takes one away, and those that are pairs of digits only once
the ligature of two f is written out as its capitals.  None of them is hexadecimal, so that bytes are
never changed: what happens is that a text which is refused becomes one that is read. -/
theorem keepsMeaning_iff (t : Text) :
    (KeepsMeaning t ↔ ¬ Misleads t) ∧ (Misleads t → read? t = none) := by
  refine ⟨?_, Misleads.read?_eq_none⟩
  rw [misleads_iff, not_or, ← toBytes?_spellOut_iff, Bool.not_eq_true]
  constructor
  · intro h
    have hmark := h.hasHexMark
    refine ⟨hmark, ?_⟩
    have hread := hexBytes_text_eq_iff.mp h.read
    rw [read?, normalize, stripMark_of_not_marked ((hasHexMark_toUpper _).trans hmark),
      toBytes?_toUpper] at hread
    exact hread
  · rintro ⟨hmark, hread⟩
    exact keepsMeaning_of_toBytes? hmark hread

/-- A second mark and the ligature are lost on the way. -/
theorem not_keepsMeaning_markedTwice_ligature :
    ¬ KeepsMeaning "0x0xAB" ∧ ¬ KeepsMeaning [ligature] := by
  constructor
  · intro h
    have hstable : Except.ok (ε := Error) ("AB" : Text) = .ok "0XAB" := h.stable
    cases hstable
  · intro h
    have hread : Except.ok (ε := Error) ([0xFF] : Bytes) = .error (.fault .badHex) := h.read
    cases hread

end LedgerAbi.Hex
