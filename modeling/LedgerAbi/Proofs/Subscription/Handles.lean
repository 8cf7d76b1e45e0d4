/-
What becomes of the handles that a transport returns.

* `Ledger` — the handles of a run by where they are: under release, released, or lost;
* `Ledger.Fits` — every handle that was returned is in one of these places or held;
* `Subscription.Loses` — a step after which nobody can release some handle;
* `Ledger.Fits.follow` — the ledger of a run fits its end, and a handle is lost just
  where a step loses one.

Design notes: a handle moves from the subscription to the operation that releases it
and from there out of reach, so the ledger is kept by signals alone and the balance is
a permutation.  That operations have numbers of their own (`Numbered`) is what lets an
answer settle the releases of its operation and no others.
-/
import LedgerAbi.Proofs.Subscription.Transition
import Mathlib.Data.List.Nodup
import Mathlib.Data.List.Perm.Basic

namespace LedgerAbi

/-- True for an operation that waits for the transport to release a handle. -/
def Suspended.isReleasing : Suspended → Bool
  | .releasing _ => true
  | _ => false

/-- The handles that the transport returned during a run, those under release by an operation,
those that it confirmed to have released, and those that nobody can release any more. -/
structure Ledger where
  acquired : List Nat
  releasing : List (Nat × Nat)
  released : List Nat
  lost : List Nat

namespace Ledger

def empty : Ledger := ⟨[], [], [], []⟩

/-- The handles under release by an operation. -/
def under (l : Ledger) (operation : Nat) : List Nat :=
  (l.releasing.filter fun entry => entry.1 == operation).map Prod.snd

/-- The ledger without the releases by an operation. -/
def strike (l : Ledger) (operation : Nat) : Ledger :=
  { l with releasing := l.releasing.filter fun entry => entry.1 != operation }

/-- The ledger after the answer of the transport, or after an operation was given up. A handle that
is held when another one is returned is lost. -/
def settle (l : Ledger) (s : Subscription) : Signal → Ledger
  | .acquired operation (.ok handle) =>
    match s.point? operation with
    | some (.acquiring _) =>
      { l with acquired := l.acquired ++ [handle], lost := l.lost ++ s.handle.toList }
    | _ => l
  | .released operation (.ok ()) =>
    match s.point? operation with
    | some (.releasing _) =>
      { l.strike operation with released := l.released ++ l.under operation }
    | _ => l
  | .released operation (.error _) =>
    match s.point? operation with
    | some (.releasing _) => { l.strike operation with lost := l.lost ++ l.under operation }
    | _ => l
  | .cancel operation =>
    match s.point? operation with
    | some (.releasing _) => { l.strike operation with lost := l.lost ++ l.under operation }
    | _ => l
  | _ => l

/-- The ledger with the releases that are asked for. -/
def request (l : Ledger) (outputs : List Output) : Ledger :=
  { l with releasing := l.releasing ++ outputs.filterMap Output.release? }

/-- The ledger after a signal to a subscription. -/
def record (l : Ledger) (s : Subscription) (signal : Signal) : Ledger :=
  (l.settle s signal).request (s.step signal).2

/-- The ledger after a run. -/
def follow : Ledger → Subscription → List Signal → Ledger
  | l, _, [] => l
  | l, s, signal :: rest => follow (l.record s signal) (s.step signal).1 rest

end Ledger

namespace Subscription

/-- What became of the handles that the transport returned during a run. -/
def ledger (s : Subscription) (signals : List Signal) : Ledger := Ledger.empty.follow s signals

/-- Operations have numbers of their own: those that are suspended and those still to begin. -/
def Numbered (s : Subscription) (signals : List Signal) : Prop :=
  (s.suspended.map Prod.fst ++ signals.filterMap Signal.begins?).Nodup

/-- A step loses a handle: another one is returned while it is held, or the operation that releases
it fails or is given up. -/
def Loses (s : Subscription) : Signal → Prop
  | .acquired operation (.ok _) =>
    (∃ iterating, s.point? operation = some (.acquiring iterating)) ∧ s.handle ≠ none
  | .released operation (.error _) => ∃ iterating, s.point? operation = some (.releasing iterating)
  | .cancel operation => ∃ iterating, s.point? operation = some (.releasing iterating)
  | _ => False

/-! ### Numbers of operations -/

section Numbers

variable {s t : Subscription} {operation : Nat} {point : Suspended} {signals : List Signal}

theorem mem_numbers_of_point? (h : s.point? operation = some point) :
    operation ∈ s.suspended.map Prod.fst := List.mem_map_of_mem (mem_of_point? h)

/-- An operation is suspended at one point only. -/
theorem point_unique (hnodup : (s.suspended.map Prod.fst).Nodup)
    (h : s.point? operation = some point) {other : Suspended}
    (hother : (operation, other) ∈ s.suspended) : other = point := by
  have hpair := List.inj_on_of_nodup_map hnodup hother (mem_of_point? h) rfl
  exact congrArg Prod.snd hpair

/-- The operations that are suspended at a kind of points, in the order in which they came there. -/
def suspendedAt (kind : Suspended → Bool) (s : Subscription) : List Nat :=
  (s.suspended.filter fun entry => kind entry.2).map Prod.fst

theorem suspendedAt_suspend (kind : Suspended → Bool) (s : Subscription) (operation : Nat)
    (point : Suspended) :
    suspendedAt kind (s.suspend operation point) =
      suspendedAt kind s ++ if kind point then [operation] else [] := by
  rw [suspendedAt, suspend, List.filter_append, List.map_append]
  cases hpoint : kind point <;> simp [hpoint, suspendedAt]

theorem suspendedAt_wake (kind : Suspended → Bool) (s : Subscription) (operation : Nat) :
    suspendedAt kind (s.wake operation) = (suspendedAt kind s).filter fun o => o != operation := by
  rw [suspendedAt, suspendedAt, wake, List.filter_map, List.filter_filter, List.filter_filter]
  congr 1
  refine List.filter_congr fun entry _ => ?_
  exact Bool.and_comm _ _

theorem mem_suspendedAt (hnodup : (s.suspended.map Prod.fst).Nodup)
    (hpoint : s.point? operation = some point) (kind : Suspended → Bool) :
    operation ∈ suspendedAt kind s ↔ kind point = true := by
  constructor
  · intro hmem
    obtain ⟨entry, hentry, rfl⟩ := List.mem_map.mp hmem
    obtain ⟨hentry, hkind⟩ := List.mem_filter.mp hentry
    rwa [point_unique hnodup hpoint hentry] at hkind
  · intro hkind
    exact List.mem_map_of_mem (List.mem_filter.mpr ⟨mem_of_point? hpoint, hkind⟩)

theorem numbered_wake (h : s.Numbered signals) (operation : Nat) :
    (s.wake operation).Numbered signals :=
  h.sublist (List.Sublist.append_right (List.Sublist.map _ List.filter_sublist) _)

/-- An operation that is suspended and goes on keeps its number. -/
theorem numbered_of_wake (h : s.Numbered signals) (hpoint : s.point? operation = some point)
    (next : Suspended)
    (ht : t.suspended = (s.wake operation).suspended ++ [(operation, next)]) :
    t.Numbered signals := by
  have hwake := numbered_wake h operation
  have hnew : operation ∉ (s.wake operation).suspended.map Prod.fst := by
    intro hmem
    obtain ⟨entry, hentry, heq⟩ := List.mem_map.mp hmem
    have := (List.mem_filter.mp hentry).2
    simp [heq] at this
  -- a number that is in use is not one of those still to come
  have hlater : operation ∉ signals.filterMap Signal.begins? :=
    fun hmem => List.disjoint_of_nodup_append h (mem_numbers_of_point? hpoint) hmem
  rw [Numbered, ht, List.map_append, List.append_assoc]
  refine List.nodup_middle.mpr (List.nodup_cons.mpr ⟨?_, hwake⟩)
  rw [List.mem_append]
  rintro (hmem | hmem)
  · exact hnew hmem
  · exact hlater hmem

/-- A transition keeps the numbers apart. -/
theorem Transition.numbered {signal : Signal} {outputs : List Output}
    (htransition : Transition s signal t outputs) (h : s.Numbered (signal :: signals)) :
    t.Numbered signals := by
  have hrest : s.Numbered signals := by
    refine h.sublist (List.Sublist.append_left ?_ _)
    exact List.Sublist.filterMap _ (List.sublist_cons_self signal signals)
  -- a step may move a number from the signals to come to the suspended operations, never copy it
  cases htransition with
  | acquires iterating hbegins hphase =>
    rw [Numbered, List.filterMap_cons_some hbegins] at h
    rw [Numbered, suspend, List.map_append, List.append_assoc]
    exact h
  | begins hbegins hturn =>
    rcases hturn.suspended_eq with ht | ⟨next, ht⟩
    · rw [Numbered, ht]
      exact hrest
    · rw [Numbered, List.filterMap_cons_some hbegins] at h
      rw [Numbered, ht, List.map_append, List.append_assoc]
      exact h
  | opens hpoint hturn =>
    rcases hturn.suspended_eq with ht | ⟨next, ht⟩
    · rw [Numbered, ht]
      exact numbered_wake hrest _
    · exact numbered_of_wake hrest hpoint next ht
  | confirms hpoint => exact numbered_wake hrest _
  | fails hpoint hfails => exact numbered_wake hrest _
  | resumes hpoint hturn =>
    rcases hturn.suspended_eq with ht | ⟨next, ht⟩
    · rw [Numbered, ht]
      exact numbered_wake hrest _
    · exact numbered_of_wake hrest hpoint next ht
  | receives hphase houtputs honce => exact hrest
  | ignores hignores => exact hrest

end Numbers

end Subscription

/-! ### The balance -/

/-- The operations that release, in the order in which they began to. -/
def Subscription.releasers (s : Subscription) : List Nat :=
  (s.suspended.filter fun entry => entry.2.isReleasing).map Prod.fst

/-- A ledger that fits a subscription: every handle that was returned is released, lost, under
release or held, and those under release have an operation that waits for it. -/
structure Ledger.Fits (l : Ledger) (s : Subscription) : Prop where
  balance : l.acquired.Perm
    (l.released ++ l.lost ++ l.releasing.map Prod.snd ++ s.handle.toList)
  releasers : l.releasing.map Prod.fst = s.releasers
  held : s.handle ≠ none → s.phase = .opened

namespace Subscription

variable {s t : Subscription} {operation : Nat} {point : Suspended}

theorem releasers_suspend (s : Subscription) (operation : Nat) (point : Suspended) :
    (s.suspend operation point).releasers =
      s.releasers ++ if point.isReleasing then [operation] else [] :=
  suspendedAt_suspend Suspended.isReleasing s operation point

theorem releasers_wake (s : Subscription) (operation : Nat) :
    (s.wake operation).releasers = s.releasers.filter fun o => o != operation :=
  suspendedAt_wake Suspended.isReleasing s operation

theorem not_mem_releasers (hnodup : (s.suspended.map Prod.fst).Nodup)
    (hpoint : s.point? operation = some point) (hnot : point.isReleasing = false) :
    operation ∉ s.releasers := by
  intro hmem
  have hreleasing := (mem_suspendedAt hnodup hpoint Suspended.isReleasing).mp hmem
  rw [hnot] at hreleasing
  cases hreleasing

theorem mem_releasers {iterating : Bool} (hpoint : s.point? operation = some (.releasing iterating)) :
    operation ∈ s.releasers :=
  List.mem_map_of_mem (List.mem_filter.mpr ⟨mem_of_point? hpoint, rfl⟩)

end Subscription

namespace Ledger

open Subscription

variable {l : Ledger} {s t : Subscription} {operation : Nat} {point : Suspended}

theorem fits_new (event : BoundEvent) (address : Address) (hasCallback : Bool) :
    Ledger.empty.Fits (Subscription.new event address hasCallback) where
  balance := List.Perm.refl _
  releasers := rfl
  held := fun h => absurd rfl h

theorem request_of_none {outputs : List Output} (h : ∀ o ∈ outputs, o.release? = none)
    (l : Ledger) : l.request outputs = l := by
  rw [request, List.filterMap_eq_nil_iff.mpr h, List.append_nil]

/-- A turn keeps the balance: a handle that it releases goes from being held to being under release. -/
theorem Fits.turn {outputs : List Output} (h : l.Fits s) (hturn : Turn operation s t outputs) :
    (l.request outputs).Fits t := by
  cases hturn with
  | ends c rest hrest =>
    rw [request_of_none (by simp [Output.release?])]
    exact ⟨h.balance, h.releasers, h.held⟩
  | returns d rest hqueue =>
    rw [request_of_none (by simp [Output.release?])]
    exact ⟨h.balance, h.releasers, h.held⟩
  | waits hqueue =>
    rw [request_of_none (by simp)]
    refine ⟨h.balance, ?_, h.held⟩
    rw [releasers_suspend, h.releasers]
    exact (List.append_nil _).symm
  | closes iterating rest hrest hphase hhandle =>
    rw [request_of_none (by simp [Output.release?])]
    exact ⟨h.balance, h.releasers, fun hsome => absurd hhandle hsome⟩
  | releases iterating rest handle hrest hphase hhandle =>
    refine ⟨?_, ?_, fun hsome => absurd rfl hsome⟩
    · -- the handle moves from the end of the balance into the list before it
      have hbalance := h.balance
      rw [hhandle] at hbalance
      simpa [request, suspend, Output.release?] using hbalance
    · have hreleasers := h.releasers
      rw [releasers_suspend]
      simp only [request, List.map_append, hreleasers]
      rfl

theorem strike_releasing (l : Ledger) (operation : Nat) :
    (l.strike operation).releasing.map Prod.fst =
      (l.releasing.map Prod.fst).filter fun o => o != operation := by
  rw [strike, List.filter_map]
  rfl

/-- What an operation has under release, and the rest. -/
theorem releasing_perm (l : Ledger) (operation : Nat) :
    (l.releasing.map Prod.snd).Perm
      (l.under operation ++ (l.strike operation).releasing.map Prod.snd) := by
  have h := List.filter_append_perm (fun entry : Nat × Nat => entry.1 == operation) l.releasing
  have hmap := (h.map Prod.snd).symm
  rwa [List.map_append] at hmap

/-- An operation that was not releasing goes on or ends. -/
theorem Fits.wake (h : l.Fits s) (hnodup : (s.suspended.map Prod.fst).Nodup)
    (hpoint : s.point? operation = some point) (hnot : point.isReleasing = false) :
    l.Fits (s.wake operation) := by
  refine ⟨h.balance, ?_, h.held⟩
  -- the operation is none of those that release, so waking it takes none of them away
  rw [releasers_wake, h.releasers, List.filter_eq_self.mpr]
  intro other hother
  refine bne_iff_ne.mpr fun heq => ?_
  rw [heq] at hother
  exact not_mem_releasers hnodup hpoint hnot hother

/-- A handle is returned to an operation that acquires. -/
theorem Fits.acquire (h : l.Fits s) (handle : Nat) :
    { l with acquired := l.acquired ++ [handle], lost := l.lost ++ s.handle.toList }.Fits
      { s with phase := .opened, handle := some handle } := by
  -- the handle that was held is counted as lost from here on, and the new one as held
  refine ⟨List.perm_iff_count.mpr fun a => ?_, h.releasers, fun _ => rfl⟩
  have hbalance := h.balance.count_eq a
  simp only [List.count_append, Option.toList_some] at hbalance ⊢
  omega

/-- An operation that releases ends, and its handles are entered as released or as lost. -/
theorem Fits.strike (h : l.Fits s) (operation : Nat) {released lost : List Nat}
    (hentered : (released ++ lost).Perm (l.released ++ l.lost ++ l.under operation)) :
    { l.strike operation with released := released, lost := lost }.Fits (s.wake operation) := by
  refine ⟨List.perm_iff_count.mpr fun a => ?_, ?_, h.held⟩
  · have hbalance := h.balance.count_eq a
    have hreleasing := (l.releasing_perm operation).count_eq a
    have hcount := hentered.count_eq a
    simp only [List.count_append] at hbalance hreleasing hcount ⊢
    show l.acquired.count a = released.count a + lost.count a +
      ((l.strike operation).releasing.map Prod.snd).count a + s.handle.toList.count a
    omega
  · rw [releasers_wake, ← h.releasers]
    exact l.strike_releasing operation

theorem Fits.release (h : l.Fits s) (operation : Nat) :
    { l.strike operation with released := l.released ++ l.under operation }.Fits
      (s.wake operation) := by
  refine h.strike operation (List.perm_iff_count.mpr fun a => ?_)
  simp only [List.count_append]
  show _ + l.lost.count a = _
  omega

theorem Fits.lose (h : l.Fits s) (operation : Nat) :
    { l.strike operation with lost := l.lost ++ l.under operation }.Fits (s.wake operation) := by
  refine h.strike operation ?_
  rw [← List.append_assoc]
  exact List.Perm.refl _

theorem settle_of_begins {signal : Signal} (h : signal.begins? = some operation) (l : Ledger)
    (s : Subscription) : l.settle s signal = l := by
  cases signal with
  | start operation => rfl
  | close operation => rfl
  | next operation => rfl
  | _ => cases h

theorem settle_of_ignores {signal : Signal} (h : s.Ignores signal) (l : Ledger) :
    l.settle s signal = l := by
  unfold settle
  split
  · next operation handle =>
    split
    · next iterating hpoint => exact absurd hpoint (h iterating)
    · rfl
  · next operation =>
    split
    · next iterating hpoint => exact absurd hpoint (h iterating)
    · rfl
  · next operation e =>
    split
    · next iterating hpoint => exact absurd hpoint (h iterating)
    · rfl
  · next operation =>
    split
    · next iterating hpoint => cases hpoint.symm.trans h
    · rfl
  · rfl

/-- Every transition keeps the balance. -/
theorem Fits.transition {signal : Signal} {outputs : List Output} (h : l.Fits s)
    (hnodup : (s.suspended.map Prod.fst).Nodup) (htransition : Transition s signal t outputs) :
    ((l.settle s signal).request outputs).Fits t := by
  -- waking an operation that holds no handle and taking a turn both keep the books
  cases htransition with
  | acquires iterating hbegins hphase =>
    rw [settle_of_begins hbegins, request_of_none (by simp [Output.release?])]
    refine ⟨h.balance, ?_, h.held⟩
    rw [releasers_suspend, h.releasers]
    exact (List.append_nil _).symm
  | begins hbegins hturn =>
    rw [settle_of_begins hbegins]
    exact h.turn hturn
  | opens hpoint hturn =>
    simp only [settle, hpoint]
    exact ((h.wake hnodup hpoint rfl).acquire _).turn hturn
  | @confirms operation iterating hpoint =>
    rw [request_of_none (by simp [Output.release?])]
    simp only [settle, hpoint]
    have hreleased := h.release operation
    exact ⟨hreleased.balance, hreleased.releasers, hreleased.held⟩
  | @fails _ operation point e hpoint hfails =>
    rw [request_of_none (by simp [Output.release?])]
    cases hfails with
    | acquiring iterating e => exact h.wake hnodup hpoint rfl
    | releasing iterating e =>
      simp only [settle, hpoint]
      exact h.lose _
    | cancelled =>
      cases point with
      | releasing iterating =>
        simp only [settle, hpoint]
        exact h.lose _
      | acquiring iterating =>
        simp only [settle, hpoint]
        exact h.wake hnodup hpoint rfl
      | waiting =>
        simp only [settle, hpoint]
        exact h.wake hnodup hpoint rfl
  | resumes hpoint hturn => exact (h.wake hnodup hpoint rfl).turn hturn
  | receives hphase houtputs honce =>
    rw [request_of_none]
    · exact ⟨h.balance, h.releasers, h.held⟩
    · intro o ho
      have hnot := houtputs o ho
      cases o with
      | release operation handle => cases hnot
      | _ => rfl
  | ignores hignores =>
    rw [settle_of_ignores hignores, request_of_none (by simp)]
    exact h

/-- An operation that releases has a handle to release. -/
theorem Fits.under_ne_nil (h : l.Fits s) {iterating : Bool}
    (hpoint : s.point? operation = some (.releasing iterating)) : l.under operation ≠ [] := by
  have hmem := mem_releasers hpoint
  rw [← h.releasers] at hmem
  obtain ⟨entry, hentry, rfl⟩ := List.mem_map.mp hmem
  refine List.ne_nil_of_mem (a := entry.2) (List.mem_map_of_mem (List.mem_filter.mpr ⟨hentry, ?_⟩))
  exact beq_self_eq_true entry.1

/-- Nothing is lost so long as no step loses anything. -/
theorem Fits.lost_settle (h : l.Fits s) (signal : Signal) :
    (l.settle s signal).lost = [] ↔ l.lost = [] ∧ ¬ s.Loses signal := by
  -- an operation is at its release because of a handle, so giving up the release loses one
  have hreleasing : ∀ operation iterating, s.point? operation = some (.releasing iterating) →
      (l.lost ++ l.under operation = [] ↔
        l.lost = [] ∧ ¬ ∃ iterating, s.point? operation = some (.releasing iterating)) := by
    intro operation iterating hpoint
    constructor
    · intro hnil
      exact absurd (List.append_eq_nil_iff.mp hnil).2 (h.under_ne_nil hpoint)
    · rintro ⟨-, hnot⟩
      exact absurd ⟨iterating, hpoint⟩ hnot
  cases signal with
  | acquired operation answer =>
    cases answer with
    | error e => exact (and_iff_left id).symm
    | ok handle =>
      by_cases hpoint : ∃ iterating, s.point? operation = some (.acquiring iterating)
      · have hloses : s.Loses (.acquired operation (.ok handle)) ↔ s.handle ≠ none :=
          and_iff_right hpoint
        obtain ⟨iterating, hpoint⟩ := hpoint
        rw [hloses]
        simp only [settle, hpoint, List.append_eq_nil_iff, Option.toList_eq_nil_iff, not_not]
      · have hignores : s.Ignores (.acquired operation (.ok handle)) :=
          fun iterating h => hpoint ⟨iterating, h⟩
        rw [settle_of_ignores hignores]
        exact (and_iff_left fun hloses => hpoint hloses.1).symm
  | released operation answer =>
    by_cases hpoint : ∃ iterating, s.point? operation = some (.releasing iterating)
    · obtain ⟨iterating, hpoint⟩ := hpoint
      cases answer with
      | error e =>
        simp only [settle, hpoint]
        exact hreleasing operation iterating hpoint
      | ok _ =>
        simp only [settle, hpoint]
        exact (and_iff_left id).symm
    · have hignores : s.Ignores (.released operation answer) :=
        fun iterating h => hpoint ⟨iterating, h⟩
      rw [settle_of_ignores hignores]
      cases answer with
      | error e => exact (and_iff_left hpoint).symm
      | ok _ => exact (and_iff_left id).symm
  | cancel operation =>
    by_cases hpoint : ∃ iterating, s.point? operation = some (.releasing iterating)
    · obtain ⟨iterating, hpoint⟩ := hpoint
      simp only [settle, hpoint]
      exact hreleasing operation iterating hpoint
    · simp only [settle]
      split
      · next iterating h => exact absurd ⟨iterating, h⟩ hpoint
      · exact (and_iff_left hpoint).symm
  | _ => exact (and_iff_left id).symm

/-- The balance holds all along a run, and a handle is lost just where a step loses one. -/
theorem Fits.follow {signals : List Signal} (h : l.Fits s) (hnumbers : s.Numbered signals) :
    (l.follow s signals).Fits (s.run signals).1 ∧
      ((l.follow s signals).lost = [] ↔
        l.lost = [] ∧ Along (fun s signal => ¬ s.Loses signal) s signals) := by
  -- the invariant is the balance, together with the numbers of the operations still to begin
  induction signals generalizing l s with
  | nil => exact ⟨h, (and_iff_left trivial).symm⟩
  | cons signal rest ih =>
    have hnodup := List.Nodup.of_append_left hnumbers
    have hnext := h.transition hnodup (s.transition signal)
    obtain ⟨hfits, hlost⟩ := ih hnext ((s.transition signal).numbered hnumbers)
    refine ⟨hfits, ?_⟩
    rw [Ledger.follow, Along]
    refine hlost.trans ?_
    rw [show ((l.settle s signal).request (s.step signal).2).lost = (l.settle s signal).lost from rfl,
      h.lost_settle signal, and_assoc]

end Ledger

end LedgerAbi
