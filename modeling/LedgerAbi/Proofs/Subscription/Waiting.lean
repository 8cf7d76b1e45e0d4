/-
Whether closing ends the iteration steps that wait.

* `Subscription.EndsWaiting` — a closed subscription where nothing can progress leaves no
  step waiting, and a step that waited ended with an item or the end;
* `serves_of_onlyWaits` — a step that waited is served unless it is given up or a release
  fails;
* `endsWaiting_iff` — exactly which runs have the property.

Design notes: closing puts a single end mark into the queue, and only after the handle is
released, whereas any number of steps may wait.  Whether the marks suffice is a matter of
counting, so the first part of the property comes from the balance of the traffic alone.
-/
import LedgerAbi.Proofs.Subscription.Traffic
import Mathlib.Data.List.Infix

namespace LedgerAbi

/-- The operation that a signal concerns. -/
def Signal.operation? : Signal → Option Nat
  | .start operation => some operation
  | .close operation => some operation
  | .next operation => some operation
  | .acquired operation _ => some operation
  | .released operation _ => some operation
  | .resume operation => some operation
  | .cancel operation => some operation
  | .log _ => none

namespace Subscription

/-- A closed subscription where nothing can progress any more: what is suspended waits, and there is
nothing to wait for in the queue. -/
structure IsQuiet (s : Subscription) : Prop where
  closed : s.phase = .closed
  waits : ∀ entry ∈ s.suspended, entry.2 = .waiting
  idle : s.waiting = [] ∨ s.queue.isEmpty = true

instance (s : Subscription) : Decidable s.IsQuiet :=
  decidable_of_iff (s.phase = .closed ∧ (∀ entry ∈ s.suspended, entry.2 = .waiting) ∧
      (s.waiting = [] ∨ s.queue.isEmpty = true))
    ⟨fun h => ⟨h.1, h.2.1, h.2.2⟩, fun h => ⟨h.closed, h.waits, h.idle⟩⟩

/-- An operation waited at some time during a run. -/
def Waited (s : Subscription) (before : List Signal) (operation : Nat) : Prop :=
  ∃ first, first <+: before ∧ operation ∈ (s.run first).1.waiting

/-- An operation ends with the delivery that it takes from the queue, or with the end. -/
def Serves (s t : Subscription) (c : Completion) : Prop :=
  c = .stop ∨ ∃ d, s.queue = .delivery d :: t.queue ∧ c = .ofDelivery d

/-- Whenever a subscription is closed and nothing can progress, no step waits, and every step that
waited and was not given up ended with a delivery of its own or with the end. -/
structure EndsWaiting (s : Subscription) (signals : List Signal) : Prop where
  none : ∀ before, before <+: signals → (s.run before).1.IsQuiet → (s.run before).1.waiting = []
  served : ∀ before signal rest operation c, signals = before ++ signal :: rest →
    s.Waited before operation → signal ≠ .cancel operation →
    .completed operation c ∈ ((s.run before).1.step signal).2 →
    Serves (s.run before).1 ((s.run before).1.step signal).1 c

variable {s t : Subscription} {operation : Nat} {point : Suspended} {signal : Signal}

/-! ### Steps that waited -/

theorem operation_of_begins (h : signal.begins? = some operation) :
    signal.operation? = some operation := by
  cases signal <;> cases h <;> rfl

theorem operation_of_fails {e : Error} (h : Fails operation point signal e) :
    signal.operation? = some operation := by
  cases h <;> rfl

/-- A turn suspends no operation but its own. -/
theorem Turn.of_mem_suspended {outputs : List Output} (h : Turn operation s t outputs)
    {entry : Nat × Suspended} (hmem : entry ∈ t.suspended) :
    entry ∈ s.suspended ∨ entry.1 = operation := by
  rcases h.suspended_eq with heq | ⟨point, heq⟩
  · exact Or.inl (heq ▸ hmem)
  · rw [heq] at hmem
    rcases List.mem_append.mp hmem with hmem | hmem
    · exact Or.inl hmem
    · exact Or.inr (congrArg Prod.fst (List.mem_singleton.mp hmem))

/-- A signal suspends no operation but the one that it concerns. -/
theorem Transition.of_mem_suspended {outputs : List Output} (h : Transition s signal t outputs)
    {entry : Nat × Suspended} (hmem : entry ∈ t.suspended) :
    entry ∈ s.suspended ∨ signal.operation? = some entry.1 := by
  cases h with
  | acquires iterating hbegins hphase =>
    rcases List.mem_append.mp hmem with hmem | hmem
    · exact Or.inl hmem
    · cases List.mem_singleton.mp hmem
      exact Or.inr (operation_of_begins hbegins)
  | begins hbegins hturn =>
    rcases hturn.of_mem_suspended hmem with hmem | heq
    · exact Or.inl hmem
    · exact Or.inr (heq ▸ operation_of_begins hbegins)
  | opens hpoint hturn =>
    rcases hturn.of_mem_suspended hmem with hmem | heq
    · exact Or.inl (List.mem_of_mem_filter hmem)
    · exact Or.inr (heq ▸ rfl)
  | confirms hpoint => exact Or.inl (List.mem_of_mem_filter hmem)
  | fails hpoint hfails => exact Or.inl (List.mem_of_mem_filter hmem)
  | resumes hpoint hturn =>
    rcases hturn.of_mem_suspended hmem with hmem | heq
    · exact Or.inl (List.mem_of_mem_filter hmem)
    · exact Or.inr (heq ▸ rfl)
  | receives hphase houtputs honce => exact Or.inl hmem
  | ignores hignores => exact Or.inl hmem

theorem Turn.operation_of_completed {outputs : List Output} (h : Turn operation s t outputs)
    {other : Nat} {c : Completion} (hmem : .completed other c ∈ outputs) : other = operation := by
  cases h <;> simp_all

/-- A signal ends no operation but the one that it concerns. -/
theorem Transition.operation_of_completed {outputs : List Output}
    (h : Transition s signal t outputs) {c : Completion} (hmem : .completed operation c ∈ outputs) :
    signal.operation? = some operation := by
  cases h with
  | acquires iterating hbegins hphase => simp at hmem
  | begins hbegins hturn =>
    rw [hturn.operation_of_completed hmem]
    exact operation_of_begins hbegins
  | opens hpoint hturn =>
    rw [hturn.operation_of_completed hmem]
    rfl
  | confirms hpoint =>
    cases List.mem_singleton.mp hmem
    rfl
  | fails hpoint hfails =>
    cases List.mem_singleton.mp hmem
    exact operation_of_fails hfails
  | resumes hpoint hturn =>
    rw [hturn.operation_of_completed hmem]
    rfl
  | receives hphase houtputs honce => cases houtputs _ hmem
  | ignores hignores => cases hmem

/-- An operation can only wait or release on behalf of an iteration step. -/
def OnlyWaits (s : Subscription) (operation : Nat) : Prop :=
  ∀ point, (operation, point) ∈ s.suspended → point = .waiting ∨ point = .releasing true

theorem OnlyWaits.point? (h : s.OnlyWaits operation) (hpoint : s.point? operation = some point) :
    point = .waiting ∨ point = .releasing true := h point (mem_of_point? hpoint)

theorem OnlyWaits.wake (h : s.OnlyWaits operation) (other : Nat) :
    (s.wake other).OnlyWaits operation :=
  fun point hmem => h point (List.mem_of_mem_filter hmem)

theorem OnlyWaits.suspend (h : s.OnlyWaits operation)
    (hpoint : point = .waiting ∨ point = .releasing true) :
    (s.suspend operation point).OnlyWaits operation := by
  intro other hmem
  rcases List.mem_append.mp hmem with hmem | hmem
  · exact h other hmem
  · cases List.mem_singleton.mp hmem
    exact hpoint

theorem OnlyWaits.takeItem (h : s.OnlyWaits operation) :
    (s.takeItem operation).1.OnlyWaits operation := by
  match hqueue : s.queue with
  | [] =>
    rw [takeItem_nil hqueue]
    exact h.suspend (Or.inl rfl)
  | .delivery d :: rest =>
    rw [takeItem_delivery hqueue]
    exact h
  | .endMark :: rest =>
    rw [takeItem_endMark hqueue]
    unfold closeBy
    split
    · exact h
    · split
      · exact h.suspend (s := { s with queue := rest, phase := .closed, handle := none }) (Or.inr rfl)
      · exact h

theorem OnlyWaits.step (h : s.OnlyWaits operation) (hbegins : signal.begins? ≠ some operation) :
    (s.step signal).1.OnlyWaits operation := by
  by_cases hown : signal.operation? = some operation
  · cases signal with
    | start other => exact absurd hown hbegins
    | close other => exact absurd hown hbegins
    | next other => exact absurd hown hbegins
    | log d => cases hown
    | acquired other answer =>
      cases hown
      simp only [Subscription.step]
      split
      · next iterating hpoint => rcases h.point? hpoint with heq | heq <;> cases heq
      · exact h
    | released other answer =>
      cases hown
      simp only [Subscription.step]
      split
      · cases answer <;> exact h.wake operation
      · exact h
    | resume other =>
      cases hown
      simp only [Subscription.step]
      split
      · exact (h.wake operation).takeItem
      · exact h
    | cancel other =>
      cases hown
      simp only [Subscription.step]
      split
      · exact h.wake operation
      · exact h
  · intro point hmem
    rcases (s.transition signal).of_mem_suspended hmem with hmem | hother
    · exact h point hmem
    · exact absurd hother hown

theorem OnlyWaits.run {signals : List Signal} (h : s.OnlyWaits operation)
    (hbegins : operation ∉ signals.filterMap Signal.begins?) :
    (s.run signals).1.OnlyWaits operation := by
  induction signals generalizing s with
  | nil => exact h
  | cons signal rest ih =>
    have hsignal : signal.begins? ≠ some operation :=
      fun heq => hbegins (List.mem_filterMap.mpr ⟨signal, List.mem_cons_self, heq⟩)
    refine ih (h.step hsignal) fun hmem => hbegins ?_
    obtain ⟨later, hlater, heq⟩ := List.mem_filterMap.mp hmem
    exact List.mem_filterMap.mpr ⟨later, List.mem_cons_of_mem signal hlater, heq⟩

/-- What an iteration step takes from the queue serves it. -/
theorem serves_takeItem {other : Nat} {c : Completion}
    (h : .completed operation c ∈ (s.takeItem other).2) : Serves s (s.takeItem other).1 c := by
  match hqueue : s.queue with
  | [] =>
    rw [takeItem_nil hqueue] at h
    cases h
  | .delivery d :: rest =>
    rw [takeItem_delivery hqueue] at h ⊢
    cases List.mem_singleton.mp h
    exact Or.inr ⟨d, hqueue, rfl⟩
  | .endMark :: rest =>
    rw [takeItem_endMark hqueue] at h
    -- closing on behalf of an iteration step ends it with the end, if at all
    refine Or.inl ?_
    unfold closeBy at h
    split at h
    · cases List.mem_singleton.mp h
      rfl
    · split at h
      · simp at h
      · cases List.mem_singleton.mp h
        rfl

/-- An operation that can only wait is served, unless it is given up or the release that it asked for
fails. -/
theorem serves_of_onlyWaits (h : s.OnlyWaits operation) (hbegins : signal.begins? ≠ some operation)
    (hkept : signal ≠ .cancel operation)
    (hreleased : ∀ e, signal = .released operation (.error e) →
      s.point? operation ≠ some (.releasing true))
    {c : Completion} (hmem : .completed operation c ∈ (s.step signal).2) :
    Serves s (s.step signal).1 c := by
  have hown := (s.transition signal).operation_of_completed hmem
  cases signal with
  | start other => exact absurd hown hbegins
  | close other => exact absurd hown hbegins
  | next other => exact absurd hown hbegins
  | log d => cases hown
  | cancel other =>
    cases hown
    exact absurd rfl hkept
  | acquired other answer =>
    cases hown
    simp only [Subscription.step] at hmem
    split at hmem
    · next iterating hpoint => rcases h.point? hpoint with heq | heq <;> cases heq
    · cases hmem
  | released other answer =>
    cases hown
    simp only [Subscription.step] at hmem
    split at hmem
    · next iterating hpoint =>
      have hiterating : iterating = true := by
        rcases h.point? hpoint with heq | heq
        · cases heq
        · injection heq
      subst hiterating
      cases answer with
      | error e => exact absurd hpoint (hreleased e rfl)
      | ok _ =>
        cases List.mem_singleton.mp hmem
        exact Or.inl rfl
    · cases hmem
  | resume other =>
    cases hown
    simp only [Subscription.step] at hmem ⊢
    split at hmem
    · exact serves_takeItem hmem
    · cases hmem

/-- A release that fails ends an operation with its failure. -/
theorem not_serves_of_released {e : Error} (hpoint : s.point? operation = some (.releasing true)) :
    .completed operation (.failed e) ∈ (s.step (.released operation (.error e))).2 ∧
      ¬ Serves s (s.step (.released operation (.error e))).1 (.failed e) := by
  simp only [Subscription.step, hpoint]
  refine ⟨List.mem_cons_self, ?_⟩
  rintro (hstop | ⟨d, hqueue, -⟩)
  · cases hstop
  · -- nothing was taken from the queue
    exact absurd (congrArg List.length hqueue) (by simp [Subscription.wake])

/-! ### Runs -/

theorem onlyWaits_of_mem_waiting (hnodup : (s.suspended.map Prod.fst).Nodup)
    (h : operation ∈ s.waiting) : s.OnlyWaits operation := by
  intro point hmem
  obtain ⟨entry, hentry, rfl⟩ := List.mem_map.mp h
  obtain ⟨hentry, hwaiting⟩ := List.mem_filter.mp hentry
  have hsame := List.inj_on_of_nodup_map hnodup hmem hentry rfl
  exact Or.inl ((congrArg Prod.snd hsame).trans (beq_iff_eq.mp hwaiting))

theorem numbered_run {signals later : List Signal} (h : s.Numbered (signals ++ later)) :
    (s.run signals).1.Numbered later := by
  induction signals generalizing s with
  | nil => exact h
  | cons signal rest ih => exact ih ((s.transition signal).numbered h)

/-- A step that waited can only wait or release from then on, and does not begin again. -/
theorem Waited.onlyWaits {before later : List Signal} (h : s.Waited before operation)
    (hnumbered : s.Numbered (before ++ later)) :
    (s.run before).1.OnlyWaits operation ∧ operation ∉ later.filterMap Signal.begins? := by
  obtain ⟨first, ⟨second, rfl⟩, hwaiting⟩ := h
  rw [List.append_assoc] at hnumbered
  have hfirst := numbered_run hnumbered
  have honly := onlyWaits_of_mem_waiting (List.nodup_append.mp hfirst).1 hwaiting
  have hnumber : operation ∈ (s.run first).1.suspended.map Prod.fst :=
    (List.filter_sublist.map _).subset hwaiting
  have hlater : operation ∉ (second ++ later).filterMap Signal.begins? :=
    fun hmem => List.disjoint_of_nodup_append hfirst hnumber hmem
  rw [List.filterMap_append, List.mem_append, not_or] at hlater
  rw [run_append]
  exact ⟨honly.run hlater.1, hlater.2⟩

/-- What is left waiting where nothing can progress: the requests that neither an item nor a mark met. -/
theorem waiting_eq_nil_iff {traffic : Traffic} (h : traffic.Balances s) (hquiet : s.IsQuiet) :
    s.waiting = [] ↔ traffic.asked ≤ traffic.put + traffic.givenUp := by
  rw [Traffic.Balances] at h
  constructor
  · intro hnone
    rw [hnone, List.length_nil] at h
    omega
  · intro hle
    rcases hquiet.idle with hnone | hempty
    · exact hnone
    · rw [List.isEmpty_iff.mp hempty, List.length_nil] at h
      exact List.length_eq_zero_iff.mp (by omega)

/-- **When closing ends all that wait.** Where a run is closed and nothing can progress, no iteration
step waits just when the steps turned to the queue no more often than items and end marks were put into
it and steps given up; and those that waited were served just when none of them asked for a release that
failed. -/
theorem endsWaiting_iff (event : BoundEvent) (address : Address) (hasCallback : Bool)
    {signals : List Signal} (hnumbers : (signals.filterMap Signal.begins?).Nodup) :
    EndsWaiting (new event address hasCallback) signals ↔
      (∀ before, before <+: signals → ((new event address hasCallback).run before).1.IsQuiet →
        ((new event address hasCallback).traffic before).asked ≤
          ((new event address hasCallback).traffic before).put +
            ((new event address hasCallback).traffic before).givenUp) ∧
      ∀ before rest operation e, signals = before ++ .released operation (.error e) :: rest →
        (new event address hasCallback).Waited before operation →
        ((new event address hasCallback).run before).1.point? operation ≠ some (.releasing true) := by
  have hnumbered : (new event address hasCallback).Numbered signals := hnumbers
  have hbalances : ∀ before, before <+: signals →
      ((new event address hasCallback).traffic before).Balances
        ((new event address hasCallback).run before).1 := by
    rintro before ⟨later, rfl⟩
    have hbefore : (new event address hasCallback).Numbered before :=
      hnumbered.sublist (List.Sublist.append_left ((List.sublist_append_left _ _).filterMap _) _)
    have hnone : Traffic.empty.Balances (new event address hasCallback) := rfl
    exact hnone.follow hbefore
  constructor
  · intro h
    refine ⟨fun before hbefore hquiet => ?_, fun before rest operation e heq hwaited hpoint => ?_⟩
    · exact (waiting_eq_nil_iff (hbalances before hbefore) hquiet).mp (h.none before hbefore hquiet)
    · obtain ⟨hcompleted, hnot⟩ := not_serves_of_released (e := e) hpoint
      exact hnot (h.served before _ rest operation _ heq hwaited (by simp) hcompleted)
  · rintro ⟨hmet, hreleased⟩
    refine ⟨fun before hbefore hquiet => ?_,
      fun before signal rest operation c heq hwaited hkept hmem => ?_⟩
    · exact (waiting_eq_nil_iff (hbalances before hbefore) hquiet).mpr (hmet before hbefore hquiet)
    · subst heq
      obtain ⟨honly, hbegins⟩ := hwaited.onlyWaits hnumbered
      refine serves_of_onlyWaits honly (fun hbegin => hbegins ?_) hkept (fun e hsignal => ?_) hmem
      · exact List.mem_filterMap.mpr ⟨signal, List.mem_cons_self, hbegin⟩
      · subst hsignal
        exact hreleased before rest operation e rfl hwaited

/-- One step that waits, and a close whose end mark it gets. -/
def singleWait : List Signal :=
  [.start 0, .acquired 0 (.ok 0), .next 1, .close 2, .released 2 (.ok ()), .resume 1]

theorem endsWaiting_iff_single :
    EndsWaiting (new pinged ⟨List.replicate 20 0, rfl⟩ false) singleWait := by
  refine (endsWaiting_iff pinged _ false (by decide)).mpr ⟨?_, ?_⟩
  · have hall : ∀ before ∈ singleWait.inits,
        ((new pinged ⟨List.replicate 20 0, rfl⟩ false).run before).1.IsQuiet →
        ((new pinged ⟨List.replicate 20 0, rfl⟩ false).traffic before).asked ≤
          ((new pinged ⟨List.replicate 20 0, rfl⟩ false).traffic before).put +
            ((new pinged ⟨List.replicate 20 0, rfl⟩ false).traffic before).givenUp := by decide
    exact fun before hbefore => hall before ((List.mem_inits _ _).mpr hbefore)
  · -- no release fails in the run
    intro before rest operation e heq
    have hmem : Signal.released operation (.error e) ∈ singleWait := heq ▸ by simp
    simp [singleWait] at hmem

/-- Two steps that wait and one end mark; a step that waits and a release that fails before its end mark
is put; the end of the stream, and the failure of the release that the step asks for which finds it. -/
theorem not_endsWaiting_second_or_failing :
    ¬ EndsWaiting (new pinged ⟨List.replicate 20 0, rfl⟩ false)
        [.start 0, .acquired 0 (.ok 0), .next 1, .next 2, .close 3, .released 3 (.ok ()), .resume 1] ∧
      ¬ EndsWaiting (new pinged ⟨List.replicate 20 0, rfl⟩ false)
        [.start 0, .acquired 0 (.ok 0), .next 1, .close 2,
          .released 2 (.error (.transport (.reported "stuck")))] ∧
      ¬ EndsWaiting (new pinged ⟨List.replicate 20 0, rfl⟩ false)
        [.start 0, .acquired 0 (.ok 0), .next 1, .log (.error (.transport (.ended "over"))), .resume 1,
          .released 1 (.error (.transport (.reported "stuck")))] := by
  refine ⟨fun h => ?_, fun h => ?_, fun h => ?_⟩
  · have hnone := h.none _ (List.prefix_refl _) (by decide)
    exact absurd hnone (by decide)
  · have hnone := h.none _ (List.prefix_refl _) (by decide)
    exact absurd hnone (by decide)
  · have hserved := h.served [.start 0, .acquired 0 (.ok 0), .next 1,
      .log (.error (.transport (.ended "over"))), .resume 1] _ [] 1
      (.failed (.transport (.reported "stuck"))) rfl
      ⟨[.start 0, .acquired 0 (.ok 0), .next 1], ⟨_, rfl⟩, by decide⟩ (by simp) List.mem_cons_self
    rcases hserved with hstop | ⟨d, hqueue, -⟩
    · cases hstop
    · cases hqueue

end Subscription

end LedgerAbi
