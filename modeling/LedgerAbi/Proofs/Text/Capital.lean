/-
Capitals have no other capitals.

* `CodePoint.CapitalForm` — the ways in which a code point gets its capital form;
* `CodePoint.toUpper_of_mem` — what stands in a capital form is its own capital form;
* `Text.toUpper_toUpper` — so that capitalising twice is capitalising once;
* `CodePoint.eq_of_mem_toUpper` — the code points of a hexadecimal mark are the capitals of
  nothing beyond ASCII.

Design notes: the letters of a run are not looked at one by one.  The capitals of a run fill an
interval, and `CapitalRun.avoids` compares it with the letters of another run, which lie before or
after it or, where both take every second code point, between its members.
-/
import Mathlib.Data.List.Basic
import LedgerAbi.Proofs.Text.Hexadecimal

namespace LedgerAbi

/-! ### Runs -/

namespace CapitalRun

theorem contains_iff {run : CapitalRun} {n : Nat} :
    run.contains n = true ↔ run.first ≤ n ∧ n ≤ run.last ∧ (n - run.first) % run.step = 0 := by
  rw [contains, Bool.and_eq_true, Bool.and_eq_true, decide_eq_true_iff, decide_eq_true_iff,
    beq_iff_eq, and_assoc]

/-- The number of the capital of a letter of a run. -/
def capital (run : CapitalRun) (n : Nat) : Nat := (n + run.distance).toNat

/-- No letter of the run is one of the numbers from `first` to `last` in steps of `step`. The two
comparisons that settle nearly all cases are in the form that is evaluated fastest, because every run
is compared with every other one. -/
def avoids (first last step : Nat) (run : CapitalRun) : Bool :=
  Nat.blt run.last first || (Nat.blt last run.first ||
    (run.step == 2 && (step == 2 || first == last) && (first + run.first) % 2 == 1))

theorem contains_eq_false_of_avoids {first last step n : Nat} {run : CapitalRun}
    (h : avoids first last step run = true) (hfirst : first ≤ n) (hlast : n ≤ last)
    (hstep : (n - first) % step = 0) : run.contains n = false := by
  refine Bool.eq_false_iff.mpr fun hcontains => ?_
  obtain ⟨hfirst', hlast', hstep'⟩ := contains_iff.mp hcontains
  simp only [avoids, Bool.or_eq_true, Bool.and_eq_true, Nat.blt_eq, beq_iff_eq] at h
  rcases h with h | h | ⟨⟨hrun, hother⟩, h⟩
  · omega
  · omega
  · -- the members of the interval are odd places from the letters
    rw [hrun] at hstep'
    rcases hother with rfl | rfl
    · omega
    · omega

/-- The capitals of a run are as far apart as its letters. -/
theorem capital_bounds {run : CapitalRun} (hrange : 0 ≤ run.first + run.distance) {n : Nat}
    (h : run.contains n = true) :
    run.capital run.first ≤ run.capital n ∧ run.capital n ≤ run.capital run.last ∧
      (run.capital n - run.capital run.first) % run.step = 0 := by
  obtain ⟨hfirst, hlast, hstep⟩ := contains_iff.mp h
  have hplace : run.capital n - run.capital run.first = n - run.first := by
    simp only [capital]
    omega
  refine ⟨?_, ?_, hplace ▸ hstep⟩
  · simp only [capital]
    omega
  · simp only [capital]
    omega

end CapitalRun

/-! ### The tables -/

/-- The capitals of runs are numbers of code points, beyond ASCII or one of the letters I and S. -/
theorem capitalRuns_range : ∀ run ∈ capitalRuns, 0 ≤ run.first + run.distance ∧
    run.capital run.last < 0x110000 ∧ (128 ≤ run.capital run.first ∨
      (run.first = run.last ∧ (run.capital run.first = 73 ∨ run.capital run.first = 83))) := by
  decide +kernel

theorem capitalRuns_avoid_capitalRuns : ∀ run ∈ capitalRuns, capitalRuns.all
    (CapitalRun.avoids (run.capital run.first) (run.capital run.last) run.step) = true := by
  decide +kernel

theorem capitalSequences_avoid_capitalRuns : ∀ run ∈ capitalRuns, (capitalSequences.all fun letter =>
    CapitalRun.avoids (run.capital run.first) (run.capital run.last) run.step
      ⟨letter.1, letter.1, 1, 0⟩) = true := by
  decide +kernel

theorem toUpper_capitalSequences : ∀ letter ∈ capitalSequences, ∀ n ∈ letter.2,
    (CodePoint.ofNat n).toUpper = [CodePoint.ofNat n] := by
  decide +kernel

namespace CodePoint

/-! ### Capital forms -/

/-- The ways in which a code point gets its capital form. -/
inductive CapitalForm (c : CodePoint) : Text → Prop
  | own : CapitalForm c [c]
  | ascii (h : 97 ≤ c.toNat ∧ c.toNat ≤ 122) : CapitalForm c [ofNat (c.toNat - 32)]
  | sequence {capital : List Nat} (h : (c.toNat, capital) ∈ capitalSequences) :
      CapitalForm c (capital.map ofNat)
  | run {run : CapitalRun} (hrun : run ∈ capitalRuns) (h : run.contains c.toNat = true) :
      CapitalForm c [ofNat (run.capital c.toNat)]

theorem capitalForm_toUpper (c : CodePoint) : CapitalForm c c.toUpper := by
  rw [toUpper]
  split
  · split
    · next h => exact .ascii h
    · exact .own
  · split
    · next capital hlookup =>
      obtain ⟨_, _, htable, -⟩ := List.lookup_eq_some_iff.mp hlookup
      exact .sequence (htable ▸ List.mem_append_right _ List.mem_cons_self)
    · split
      · next run hfind =>
        have hcontains := List.find?_some hfind
        exact .run (List.mem_of_find?_eq_some hfind) hcontains
      · exact .own

/-- A code point that no table lists is its own capital form. -/
theorem toUpper_eq_self {c : CodePoint} (hascii : ¬(97 ≤ c.toNat ∧ c.toNat ≤ 122))
    (hsequence : ∀ letter ∈ capitalSequences, letter.1 ≠ c.toNat)
    (hrun : ∀ run ∈ capitalRuns, run.contains c.toNat = false) : c.toUpper = [c] := by
  have hform := capitalForm_toUpper c
  generalize c.toUpper = form at hform
  cases hform with
  | own => rfl
  | ascii h => exact absurd h hascii
  | sequence h => exact absurd rfl (hsequence _ h)
  | run hmem h =>
    rw [hrun _ hmem] at h
    cases h

/-- The capital of a letter of a run lies beyond ASCII, or is the letter I or S. -/
theorem toNat_capital {run : CapitalRun} (hrun : run ∈ capitalRuns) {n : Nat}
    (h : run.contains n = true) :
    (ofNat (run.capital n)).toNat = run.capital n ∧
      (128 ≤ run.capital n ∨ run.capital n = 73 ∨ run.capital n = 83) := by
  obtain ⟨hrange, htop, hletters⟩ := capitalRuns_range run hrun
  obtain ⟨hfirst, hlast, -⟩ := CapitalRun.capital_bounds hrange h
  refine ⟨toNat_ofNat (by omega), ?_⟩
  rcases hletters with hletters | ⟨hsingle, hletters⟩
  · exact Or.inl (by omega)
  · -- the only letter of the run is `n` itself
    rw [← hsingle] at hlast
    rw [Nat.le_antisymm hlast hfirst]
    exact Or.inr hletters

/-- What stands in a capital form is its own capital form. -/
theorem toUpper_of_mem {c d : CodePoint} (h : d ∈ c.toUpper) : d.toUpper = [d] := by
  have hform := capitalForm_toUpper c
  generalize hupper : c.toUpper = form at h hform
  cases hform with
  | own =>
    rw [List.mem_singleton.mp h]
    exact hupper
  | ascii hc =>
    have hd : d.toNat = c.toNat - 32 := by
      rw [List.mem_singleton.mp h]
      exact toNat_ofNat (by omega)
    rw [toUpper, if_pos (by omega), if_neg (by omega)]
  | sequence hc =>
    obtain ⟨n, hn, rfl⟩ := List.mem_map.mp h
    exact toUpper_capitalSequences _ hc n hn
  | run hrun hc =>
    next run =>
    obtain ⟨hnumber, hletter⟩ := toNat_capital hrun hc
    obtain ⟨hfirst, hlast, hstep⟩ :=
      CapitalRun.capital_bounds (capitalRuns_range run hrun).1 hc
    rw [List.mem_singleton.mp h]
    refine toUpper_eq_self ?_ ?_ ?_
    · rw [hnumber]
      omega
    · intro letter hmem heq
      have havoids := List.all_eq_true.mp (capitalSequences_avoid_capitalRuns run hrun) letter hmem
      have hout := CapitalRun.contains_eq_false_of_avoids havoids hfirst hlast hstep
      rw [← hnumber, ← heq] at hout
      exact Bool.eq_false_iff.mp hout
        (CapitalRun.contains_iff.mpr ⟨Nat.le_refl _, Nat.le_refl _, Nat.mod_one _⟩)
    · intro other hother
      rw [hnumber]
      exact CapitalRun.contains_eq_false_of_avoids
        (List.all_eq_true.mp (capitalRuns_avoid_capitalRuns run hrun) other hother) hfirst hlast hstep

theorem toUpper_ne_nil (c : CodePoint) : c.toUpper ≠ [] := by
  have hsequences : ∀ letter ∈ capitalSequences, letter.2 ≠ [] := by decide +kernel
  have hform := capitalForm_toUpper c
  generalize c.toUpper = form at hform
  cases hform with
  | own => exact List.cons_ne_nil _ _
  | ascii _ => exact List.cons_ne_nil _ _
  | sequence h => exact fun hnil => hsequences _ h (List.map_eq_nil_iff.mp hnil)
  | run _ _ => exact List.cons_ne_nil _ _

/-- A zero and the letter of a mark stand in the capital forms of ASCII only: of themselves, and of the
small letter. -/
theorem eq_of_mem_toUpper {c d : CodePoint} (h : d ∈ c.toUpper)
    (hd : d = .char '0' ∨ d = .char 'X') : c = d ∨ (d = .char 'X' ∧ c = .char 'x') := by
  have hsequences : ∀ letter ∈ capitalSequences, ∀ n ∈ letter.2,
      ofNat n ≠ .char '0' ∧ ofNat n ≠ .char 'X' := by decide +kernel
  have hform := capitalForm_toUpper c
  generalize c.toUpper = form at h hform
  cases hform with
  | own => exact Or.inl (List.mem_singleton.mp h).symm
  | ascii hc =>
    have hnumber : d.toNat = c.toNat - 32 := by
      rw [List.mem_singleton.mp h]
      exact toNat_ofNat (by omega)
    rcases hd with rfl | rfl
    · rw [show toNat (.char '0') = 48 from rfl] at hnumber
      omega
    · rw [show toNat (.char 'X') = 88 from rfl] at hnumber
      exact Or.inr ⟨rfl, toNat_inj (show c.toNat = 120 by omega)⟩
  | sequence hc =>
    obtain ⟨n, hn, rfl⟩ := List.mem_map.mp h
    obtain ⟨hzero, hx⟩ := hsequences _ hc n hn
    rcases hd with hd | hd
    · exact absurd hd hzero
    · exact absurd hd hx
  | run hrun hc =>
    obtain ⟨hnumber, hletter⟩ := toNat_capital hrun hc
    rw [← List.mem_singleton.mp h] at hnumber
    rcases hd with rfl | rfl
    · rw [show toNat (.char '0') = 48 from rfl] at hnumber
      omega
    · rw [show toNat (.char 'X') = 88 from rfl] at hnumber
      omega

end CodePoint

/-- Capitalising twice is capitalising once. -/
theorem Text.toUpper_toUpper (t : Text) : t.toUpper.toUpper = t.toUpper := by
  have hself (u : Text) (h : ∀ c ∈ u, c.toUpper = [c]) : u.toUpper = u := by
    rw [toUpper, List.flatMap_congr h, List.flatMap_singleton']
  refine hself _ fun d hd => ?_
  obtain ⟨c, -, hd⟩ := List.mem_flatMap.mp hd
  exact CodePoint.toUpper_of_mem hd

end LedgerAbi
