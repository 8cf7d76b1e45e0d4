/-
What is queued for iteration.

* `Subscription.IsOrderly` — how the operations of a subscription stand when nothing went
  wrong;
* `Subscription.Fits` — what was accepted and not returned yet is queued, with the end marks
  behind it;
* `Fits.takeItem` — an iteration step returns the first delivery that was not returned, or
  stops where there is none left.

Design notes: marks come into the queue by three ways, at the end of the stream and twice
at closing, and each of them only where nothing is accepted any more.  So the queue always
has deliveries first and marks last, and a step that takes a mark leaves no delivery
behind.  `Fits` says so with the numbers of marks queued and of steps that were stopped.
-/
import LedgerAbi.Proofs.Subscription.Journal
import Mathlib.Data.List.TakeWhile

namespace LedgerAbi

namespace Subscription

variable {s t : Subscription} {operation : Nat} {point : Suspended} {steps : List Nat}

/-! ### Where the operations stand -/

/-- How the operations of a subscription stand when nothing went wrong: only iteration steps iterate,
one request at most is in flight and only while the subscription is pending, handles are released
only when it is closed, and there is nothing in the queue before it opens. -/
structure IsOrderly (steps : List Nat) (s : Subscription) : Prop where
  iterating : ∀ operation point, (operation, point) ∈ s.suspended →
    (point.isIterating = true ↔ operation ∈ steps)
  once : s.inFlight ≤ 1
  acquiring : s.inFlight ≠ 0 → s.phase = .pending
  releasing : ∀ operation iterating, (operation, .releasing iterating) ∈ s.suspended →
    s.phase = .closed
  pending : s.phase = .pending → s.queue = []

namespace IsOrderly

theorem new (steps : List Nat) (event : BoundEvent) (address : Address) (hasCallback : Bool) :
    IsOrderly steps (new event address hasCallback) where
  iterating := by
    intro operation point hmem
    cases hmem
  once := Nat.zero_le 1
  acquiring := fun h => absurd rfl h
  releasing := by
    intro operation iterating hmem
    cases hmem
  pending := fun _ => rfl

theorem wake (h : IsOrderly steps s) (operation : Nat) : IsOrderly steps (s.wake operation) where
  iterating other point hmem := h.iterating other point (List.mem_of_mem_filter hmem)
  once := Nat.le_trans (inFlight_wake_le s operation) h.once
  acquiring hflight := h.acquiring (by have := inFlight_wake_le s operation; omega)
  releasing other iterating hmem := h.releasing other iterating (List.mem_of_mem_filter hmem)
  pending := h.pending

/-- Waiting is possible at any time, acquiring while nothing else does and releasing once closed. -/
theorem suspend (h : IsOrderly steps s) (hiterating : point.isIterating = true ↔ operation ∈ steps)
    (hacquiring : point.isAcquiring = true → s.inFlight = 0 ∧ s.phase = .pending)
    (hreleasing : point.isReleasing = true → s.phase = .closed) :
    IsOrderly steps (s.suspend operation point) := by
  have hflight := inFlight_suspend s operation point
  refine ⟨fun other place hmem => ?_, ?_, fun hnot => ?_, fun other iterating hmem => ?_, h.pending⟩
  · rcases List.mem_append.mp hmem with hmem | hmem
    · exact h.iterating other place hmem
    · cases List.mem_singleton.mp hmem
      exact hiterating
  · have honce := h.once
    split at hflight
    · next hpoint =>
      have := (hacquiring hpoint).1
      omega
    · omega
  · split at hflight
    · next hpoint => exact (hacquiring hpoint).2
    · exact h.acquiring (by omega)
  · rcases List.mem_append.mp hmem with hmem | hmem
    · exact h.releasing other iterating hmem
    · cases List.mem_singleton.mp hmem
      exact hreleasing rfl

/-- Once nothing is acquired, the queue is no longer bound to the phase, which may be closed. -/
theorem settle (h : IsOrderly steps s) (hfree : s.inFlight = 0) (handle : Option Nat)
    (queue : List QueueItem) :
    IsOrderly steps { s with phase := .closed, handle := handle, queue := queue } where
  iterating := h.iterating
  once := h.once
  acquiring hflight := absurd hfree hflight
  releasing _ _ _ := rfl
  pending hpending := by cases hpending

theorem dequeue (h : IsOrderly steps s) {item : QueueItem} {rest : List QueueItem}
    (hqueue : s.queue = item :: rest) : IsOrderly steps { s with queue := rest } where
  iterating := h.iterating
  once := h.once
  acquiring := h.acquiring
  releasing := h.releasing
  pending hpending := by cases hqueue.symm.trans (h.pending hpending)

theorem closeBy (h : IsOrderly steps s) {iterating : Bool}
    (hiterating : iterating = true ↔ operation ∈ steps) (hfree : s.inFlight = 0) :
    IsOrderly steps (s.closeBy operation iterating).1 := by
  unfold Subscription.closeBy
  split
  · exact h
  · split
    · exact (h.settle hfree none s.queue).suspend hiterating (fun hpoint => by cases hpoint)
        fun _ => rfl
    · exact h.settle hfree s.handle (s.queue ++ [.endMark])

theorem takeItem (h : IsOrderly steps s) (hstep : operation ∈ steps) :
    IsOrderly steps (s.takeItem operation).1 := by
  match hqueue : s.queue with
  | [] =>
    rw [takeItem_nil hqueue]
    exact h.suspend (iff_of_true rfl hstep) (fun hpoint => by cases hpoint)
      fun hpoint => by cases hpoint
  | .delivery d :: rest =>
    rw [takeItem_delivery hqueue]
    exact h.dequeue hqueue
  | .endMark :: rest =>
    rw [takeItem_endMark hqueue]
    -- with something in the queue the subscription is not pending, so nothing is acquired
    refine (h.dequeue hqueue).closeBy (iff_of_true rfl hstep) ?_
    by_contra hflight
    cases hqueue.symm.trans (h.pending (h.acquiring hflight))

/-- The operation that acquired was the only one to do so, and nothing was released before. -/
theorem opens (h : IsOrderly steps s) {iterating : Bool}
    (hpoint : s.point? operation = some (.acquiring iterating)) (handle : Nat) :
    s.phase = .pending ∧
      IsOrderly steps { s.wake operation with phase := .opened, handle := some handle } := by
  have hless := inFlight_wake_lt hpoint
  have honce := h.once
  have hphase := h.acquiring (by omega)
  refine ⟨hphase, (h.wake operation).iterating, (h.wake operation).once, fun hflight => ?_,
    fun other iterating hmem => ?_, fun hpending => by cases hpending⟩
  · have hfree : (s.wake operation).inFlight = 0 := by omega
    exact absurd hfree hflight
  · cases hphase.symm.trans ((h.wake operation).releasing other iterating hmem)

theorem enqueue (h : IsOrderly steps s) (hphase : s.phase ≠ .pending) (item : QueueItem) :
    IsOrderly steps (s.enqueue item) where
  iterating := h.iterating
  once := h.once
  acquiring := h.acquiring
  releasing := h.releasing
  pending hpending := absurd hpending hphase

end IsOrderly

/-! ### Deliveries and end marks -/

/-- How the deliveries of a subscription stand when some of what it accepted was returned and the rest
is queued: nothing was accepted behind the end of the stream, end marks are put behind the deliveries
and only where nothing is accepted any more, and a step stops only where no delivery is left. -/
structure Fits (s : Subscription) (accepted : List Rpc.LogDelivery) (outcomes : List Completion)
    (returned queued : List EventDelivery) (stops marks : Nat) : Prop where
  accepted_eq : (accepted.takeWhile fun d => !isEnd d).map (delivery s.event) = returned ++ queued
  outcomes_eq : outcomes = returned.map .ofDelivery ++ List.replicate stops .stop
  queue_eq : s.queue = queued.map .delivery ++ List.replicate marks .endMark
  stopped : stops ≠ 0 → s.phase = .closed ∧ queued = []
  marked : marks ≠ 0 → s.phase = .closed ∨ ∃ d ∈ accepted, isEnd d = true
  stopping : ∀ operation, (operation, .releasing true) ∈ s.suspended →
    s.phase = .closed ∧ queued = []

/-- What was accepted and how steps ended fit a subscription. -/
def Consistent (s : Subscription) (accepted : List Rpc.LogDelivery) (outcomes : List Completion) :
    Prop :=
  ∃ returned queued stops marks, s.Fits accepted outcomes returned queued stops marks

section Fits

variable {accepted : List Rpc.LogDelivery} {outcomes : List Completion}
variable {returned queued : List EventDelivery} {stops marks : Nat}

/-- The outcome of an operation that ends counts if it is an iteration step. -/
theorem outcome_completed (operation : Nat) (c : Completion) :
    [Output.completed operation c].filterMap (Output.outcome? steps) =
      if operation ∈ steps then [c] else [] := by
  simp only [List.filterMap_cons, Output.outcome?, List.filterMap_nil]
  split
  · next h =>
    split at h
    · cases h
    · next hnot => rw [if_neg hnot]
  · next h =>
    split at h
    · next hstep =>
      cases h
      rw [if_pos hstep]
    · cases h

namespace Fits

theorem wake (h : s.Fits accepted outcomes returned queued stops marks) (operation : Nat) :
    (s.wake operation).Fits accepted outcomes returned queued stops marks where
  accepted_eq := h.accepted_eq
  outcomes_eq := h.outcomes_eq
  queue_eq := h.queue_eq
  stopped := h.stopped
  marked := h.marked
  stopping other hmem := h.stopping other (List.mem_of_mem_filter hmem)

theorem suspend (h : s.Fits accepted outcomes returned queued stops marks)
    (hpoint : point = .releasing true → s.phase = .closed ∧ queued = []) :
    (s.suspend operation point).Fits accepted outcomes returned queued stops marks where
  accepted_eq := h.accepted_eq
  outcomes_eq := h.outcomes_eq
  queue_eq := h.queue_eq
  stopped := h.stopped
  marked := h.marked
  stopping other hmem := by
    rcases List.mem_append.mp hmem with hmem | hmem
    · exact h.stopping other hmem
    · cases List.mem_singleton.mp hmem
      exact hpoint rfl

/-- Closing accepts nothing more. -/
theorem settle (h : s.Fits accepted outcomes returned queued stops marks) (handle : Option Nat) :
    Fits { s with phase := .closed, handle := handle } accepted outcomes returned queued stops
      marks where
  accepted_eq := h.accepted_eq
  outcomes_eq := h.outcomes_eq
  queue_eq := h.queue_eq
  stopped hstops := ⟨rfl, (h.stopped hstops).2⟩
  marked _ := Or.inl rfl
  stopping other hmem := ⟨rfl, (h.stopping other hmem).2⟩

theorem mark (h : s.Fits accepted outcomes returned queued stops marks)
    (hover : s.phase = .closed ∨ ∃ d ∈ accepted, isEnd d = true) :
    (s.enqueue .endMark).Fits accepted outcomes returned queued stops (marks + 1) where
  accepted_eq := h.accepted_eq
  outcomes_eq := h.outcomes_eq
  queue_eq := by
    show s.queue ++ [.endMark] = _
    rw [h.queue_eq, List.append_assoc, List.replicate_succ']
  stopped := h.stopped
  marked _ := hover
  stopping := h.stopping

/-- A closed subscription without deliveries stops the steps that end, and only these. -/
theorem stop (h : s.Fits accepted outcomes returned queued stops marks) (hclosed : s.phase = .closed)
    {iterating : Bool} (hiterating : iterating = true ↔ operation ∈ steps)
    (hqueued : iterating = true → queued = []) :
    s.Fits accepted
      (outcomes ++ [Output.completed operation (afterRelease iterating)].filterMap
        (Output.outcome? steps))
      returned queued (stops + if iterating then 1 else 0) marks := by
  rw [outcome_completed]
  cases iterating with
  | false =>
    rw [if_neg fun hstep => Bool.false_ne_true (hiterating.mpr hstep), List.append_nil]
    exact h
  | true =>
    refine ⟨h.accepted_eq, ?_, h.queue_eq, fun _ => ⟨hclosed, hqueued rfl⟩, h.marked, h.stopping⟩
    rw [if_pos (hiterating.mp rfl), h.outcomes_eq, List.append_assoc, afterRelease, if_pos rfl,
      if_pos rfl, List.replicate_succ']

theorem closeBy (h : s.Fits accepted outcomes returned queued stops marks) {iterating : Bool}
    (hiterating : iterating = true ↔ operation ∈ steps) (hqueued : iterating = true → queued = []) :
    Consistent (s.closeBy operation iterating).1 accepted
      (outcomes ++ (s.closeBy operation iterating).2.filterMap (Output.outcome? steps)) := by
  unfold Subscription.closeBy
  split
  · next hclosed => exact ⟨_, _, _, _, h.stop hclosed hiterating hqueued⟩
  · split
    · rw [show ∀ handle, [Output.release operation handle].filterMap (Output.outcome? steps) = []
        from fun _ => rfl, List.append_nil]
      refine ⟨_, _, _, _, (h.settle none).suspend fun hpoint => ⟨rfl, hqueued ?_⟩⟩
      cases hpoint
      rfl
    · exact ⟨_, _, _, _, ((h.settle s.handle).mark (Or.inl rfl)).stop rfl hiterating hqueued⟩

/-- The delivery in front of the queue is the first that was not returned, and no step stopped. -/
theorem deliver (h : s.Fits accepted outcomes returned queued stops marks) {d : EventDelivery}
    {rest : List QueueItem} (hqueue : s.queue = .delivery d :: rest) :
    ∃ later, Fits { s with queue := rest } accepted (outcomes ++ [.ofDelivery d]) (returned ++ [d])
      later 0 marks := by
  match queued, h with
  | [], h =>
    -- a mark is no delivery
    have hmark := h.queue_eq
    rw [hqueue, List.map_nil, List.nil_append] at hmark
    have hmem : QueueItem.delivery d ∈ List.replicate marks QueueItem.endMark :=
      hmark ▸ List.mem_cons_self
    cases List.eq_of_mem_replicate hmem
  | first :: later, h =>
    have hcons := h.queue_eq
    rw [hqueue, List.map_cons, List.cons_append] at hcons
    injection hcons with hfirst hrest
    injection hfirst with hfirst
    subst hfirst
    have hstops : stops = 0 := by
      by_contra hstops
      cases (h.stopped hstops).2
    refine ⟨later, ?_, ?_, hrest, fun hnot => absurd rfl hnot, h.marked, fun other hmem => ?_⟩
    · rw [h.accepted_eq, List.append_assoc, List.singleton_append]
    · rw [h.outcomes_eq, hstops, List.map_append]
      simp
    · cases (h.stopping other hmem).2

/-- The mark in front of the queue stands behind all deliveries. -/
theorem dropMark (h : s.Fits accepted outcomes returned queued stops marks) {rest : List QueueItem}
    (hqueue : s.queue = .endMark :: rest) :
    queued = [] ∧ ∃ fewer, Fits { s with queue := rest } accepted outcomes returned queued stops
      fewer := by
  match queued, h with
  | first :: later, h =>
    have hcons := h.queue_eq
    rw [hqueue, List.map_cons, List.cons_append] at hcons
    injection hcons with hfirst
    cases hfirst
  | [], h =>
    have hmarks := h.queue_eq
    rw [hqueue, List.map_nil, List.nil_append] at hmarks
    match marks, hmarks with
    | fewer + 1, hmarks =>
      rw [List.replicate_succ] at hmarks
      injection hmarks with _ hrest
      exact ⟨rfl, fewer, h.accepted_eq, h.outcomes_eq, hrest, h.stopped,
        fun _ => h.marked (Nat.succ_ne_zero fewer), h.stopping⟩

theorem takeItem (h : s.Fits accepted outcomes returned queued stops marks)
    (hstep : operation ∈ steps) :
    Consistent (s.takeItem operation).1 accepted
      (outcomes ++ (s.takeItem operation).2.filterMap (Output.outcome? steps)) := by
  match hqueue : s.queue with
  | [] =>
    rw [takeItem_nil hqueue, List.filterMap_nil, List.append_nil]
    exact ⟨_, _, _, _, h.suspend fun hpoint => by cases hpoint⟩
  | .delivery d :: rest =>
    obtain ⟨later, h⟩ := h.deliver hqueue
    rw [takeItem_delivery hqueue, outcome_completed, if_pos hstep]
    exact ⟨_, _, _, _, h⟩
  | .endMark :: rest =>
    obtain ⟨hqueued, fewer, h⟩ := h.dropMark hqueue
    rw [takeItem_endMark hqueue]
    exact h.closeBy (iff_of_true rfl hstep) fun _ => hqueued

/-- A subscription that opens had nothing to return and nobody to stop. -/
theorem opens (h : s.Fits accepted outcomes returned queued stops marks) (hphase : s.phase = .pending)
    (hqueue : s.queue = []) (handle : Nat) :
    Fits { s with phase := .opened, handle := some handle } accepted outcomes returned queued stops
      marks where
  accepted_eq := h.accepted_eq
  outcomes_eq := h.outcomes_eq
  queue_eq := h.queue_eq
  stopped hstops := by cases hphase.symm.trans (h.stopped hstops).1
  marked hmarks := by
    have hnone := h.queue_eq
    rw [hqueue] at hnone
    have hempty := (List.append_eq_nil_iff.mp hnone.symm).2
    exact absurd ((List.replicate_eq_nil_iff _).mp hempty) hmarks
  stopping other hmem := by cases hphase.symm.trans (h.stopping other hmem).1

/-- What counts of something that is accepted after no end of the stream. -/
theorem takeWhile_append {d : Rpc.LogDelivery} (hbefore : ∀ earlier ∈ accepted, isEnd earlier = false) :
    (accepted ++ [d]).takeWhile (fun d => !isEnd d) =
      (accepted.takeWhile fun d => !isEnd d) ++ if isEnd d then [] else [d] := by
  have hall : ∀ earlier ∈ accepted, (!isEnd earlier) = true := by
    intro earlier hmem
    rw [hbefore earlier hmem]
    rfl
  rw [List.takeWhile_append_of_pos hall, List.takeWhile_eq_self_iff.mpr hall]
  cases hend : isEnd d <;> simp [hend]

theorem endStream (h : s.Fits accepted outcomes returned queued stops marks)
    (hbefore : ∀ earlier ∈ accepted, isEnd earlier = false) {d : Rpc.LogDelivery}
    (hend : isEnd d = true) :
    (s.enqueue .endMark).Fits (accepted ++ [d]) outcomes returned queued stops (marks + 1) := by
  have hover : ∃ last ∈ accepted ++ [d], isEnd last = true := ⟨d, by simp, hend⟩
  refine ⟨?_, h.outcomes_eq, ?_, h.stopped, fun _ => Or.inr hover, h.stopping⟩
  · rw [takeWhile_append hbefore, if_pos hend, List.append_nil]
    exact h.accepted_eq
  · show s.queue ++ [.endMark] = _
    rw [h.queue_eq, List.append_assoc, List.replicate_succ']

/-- Where something else is accepted, no mark is queued yet and no step was stopped. -/
theorem accept (h : s.Fits accepted outcomes returned queued stops marks) (hopened : s.phase = .opened)
    (hbefore : ∀ earlier ∈ accepted, isEnd earlier = false) {d : Rpc.LogDelivery}
    (hend : isEnd d = false) :
    (s.enqueue (.delivery (delivery s.event d))).Fits (accepted ++ [d]) outcomes returned
      (queued ++ [delivery s.event d]) 0 0 := by
  have hstops : stops = 0 := by
    by_contra hnot
    cases hopened.symm.trans (h.stopped hnot).1
  have hmarks : marks = 0 := by
    by_contra hnot
    rcases h.marked hnot with hclosed | ⟨last, hmem, hlast⟩
    · cases hopened.symm.trans hclosed
    · cases hlast.symm.trans (hbefore last hmem)
  subst hstops hmarks
  refine ⟨?_, h.outcomes_eq, ?_, fun hnot => absurd rfl hnot, fun hnot => absurd rfl hnot,
    fun other hmem => ?_⟩
  · rw [takeWhile_append hbefore, if_neg (by rw [hend]; exact Bool.false_ne_true), List.map_append,
      ← List.append_assoc]
    exact congrArg (· ++ _) h.accepted_eq
  · show s.queue ++ [.delivery (delivery s.event d)] = _
    rw [h.queue_eq, List.map_append]
    simp
  · cases hopened.symm.trans (h.stopping other hmem).1

end Fits

end Fits

end Subscription

end LedgerAbi
