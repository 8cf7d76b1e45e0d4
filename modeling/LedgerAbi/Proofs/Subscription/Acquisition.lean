/-
How often a subscription is acquired.

* `Subscription.inFlight` — how many operations wait for the transport to return a
  handle;
* `Subscription.AcquiresOnce` — over a run, at most one request for a handle is in
  flight or has succeeded, and so a log is passed on at most once;
* `acquiresOnce_iff` — exactly which runs have this property.

Design notes: a second request can only be made while the subscription is pending, and
then no handle was returned yet.  So the sum of the requests in flight and of the handles
returned grows past one at a single kind of step: an operation that asks for a handle
while another one waits for its own.
-/
import LedgerAbi.Proofs.Subscription.Handles

namespace LedgerAbi

/-- True for an operation that waits for the transport to return a handle. -/
def Suspended.isAcquiring : Suspended → Bool
  | .acquiring _ => true
  | _ => false

/-- True for an invocation of the callback. -/
def Output.isCallback : Output → Bool
  | .callback _ => true
  | _ => false

/-- The handles that were returned and not released. -/
def Ledger.live (l : Ledger) : List Nat := l.acquired.diff l.released

namespace Subscription

/-- How many operations wait for the transport to return a handle. -/
def inFlight (s : Subscription) : Nat :=
  (s.suspended.filter fun entry => entry.2.isAcquiring).length

/-- How often a run passes something on, to the callback or into the queue. -/
def deliveries (s : Subscription) (signals : List Signal) : Nat :=
  ((s.run signals).2.filter Output.isCallback).length +
    ((s.run signals).1.queue.length - s.queue.length)

/-- At no time in a run is there more than one request for a handle that is in flight or has succeeded,
and at no time is a log passed on more than once if every live handle passes it once. -/
structure AcquiresOnce (s : Subscription) (signals : List Signal) : Prop where
  once : ∀ before rest, signals = before ++ rest →
    (s.run before).1.inFlight + (s.ledger before).acquired.length ≤ 1
  delivered : ∀ before rest d, signals = before ++ rest →
    (s.run before).1.deliveries (List.replicate (s.ledger before).live.length (.log d)) ≤ 1

/-- A step asks for a handle while another operation waits for its own. -/
def Overlaps (s : Subscription) (signal : Signal) : Prop :=
  (∃ operation, .acquire operation ∈ (s.step signal).2) ∧ s.inFlight ≠ 0

/-! ### Requests in flight -/

variable {s t : Subscription} {operation : Nat} {point : Suspended}

theorem inFlight_suspend (s : Subscription) (operation : Nat) (point : Suspended) :
    (s.suspend operation point).inFlight =
      s.inFlight + if point.isAcquiring then 1 else 0 := by
  rw [inFlight, suspend, List.filter_append, List.length_append]
  cases hpoint : point.isAcquiring <;> simp [hpoint, inFlight]

theorem inFlight_wake_le (s : Subscription) (operation : Nat) :
    (s.wake operation).inFlight ≤ s.inFlight := by
  exact (List.filter_sublist.filter _).length_le

/-- An operation that acquired does so no longer. -/
theorem inFlight_wake_lt {iterating : Bool}
    (hpoint : s.point? operation = some (.acquiring iterating)) :
    (s.wake operation).inFlight + 1 ≤ s.inFlight := by
  have hmem : (operation, Suspended.acquiring iterating) ∈
      s.suspended.filter fun entry => entry.2.isAcquiring :=
    List.mem_filter.mpr ⟨mem_of_point? hpoint, rfl⟩
  have hcomm : (s.wake operation).inFlight = ((s.suspended.filter fun entry =>
      entry.2.isAcquiring).filter fun entry => entry.1 != operation).length := by
    rw [inFlight, wake, List.filter_comm]
  rw [hcomm]
  exact List.length_filter_lt_length_iff_exists.mpr ⟨_, hmem, by simp⟩

/-! ### One step -/

/-- How a run stands after some handles were returned: no more than one request is in flight or has
succeeded, and a pending subscription has no handle. -/
structure Sound (s : Subscription) (returned : Nat) : Prop where
  once : s.inFlight + returned ≤ 1
  pending : s.phase = .pending → returned = 0

theorem Turn.inFlight_eq {outputs : List Output} (h : Turn operation s t outputs) :
    t.inFlight = s.inFlight := by
  cases h with
  | ends c rest hrest => rfl
  | returns d rest hqueue => rfl
  | waits hqueue => exact inFlight_suspend s operation .waiting
  | closes iterating rest hrest hphase hhandle => rfl
  | releases iterating rest handle hrest hphase hhandle =>
    exact inFlight_suspend _ operation (.releasing iterating)

theorem Turn.phase_eq {outputs : List Output} (h : Turn operation s t outputs) :
    t.phase = s.phase ∨ t.phase = .closed := by
  cases h with
  | ends c rest hrest => exact Or.inl rfl
  | returns d rest hqueue => exact Or.inl rfl
  | waits hqueue => exact Or.inl rfl
  | closes iterating rest hrest hphase hhandle => exact Or.inr rfl
  | releases iterating rest handle hrest hphase hhandle => exact Or.inr rfl

theorem Turn.acquire_not_mem {outputs : List Output} (h : Turn operation s t outputs)
    (other : Nat) : Output.acquire other ∉ outputs := by
  cases h <;> simp

theorem Sound.turn {returned : Nat} {outputs : List Output} (h : s.Sound returned)
    (hturn : Turn operation s t outputs) : t.Sound returned := by
  refine ⟨hturn.inFlight_eq ▸ h.once, fun hpending => ?_⟩
  rcases hturn.phase_eq with hphase | hphase
  · exact h.pending (hphase ▸ hpending)
  · cases hpending.symm.trans hphase

theorem Sound.wake {returned : Nat} (h : s.Sound returned) (operation : Nat) :
    (s.wake operation).Sound returned :=
  ⟨Nat.le_trans (Nat.add_le_add_right (inFlight_wake_le s operation) _) h.once, h.pending⟩

/-- A transition keeps a run sound, provided that it does not ask for a handle while another operation
waits for its own. -/
theorem Sound.transition {l : Ledger} {signal : Signal} {outputs : List Output}
    (h : s.Sound l.acquired.length) (htransition : Transition s signal t outputs)
    (hfree : ∀ other, .acquire other ∈ outputs → s.inFlight = 0) :
    t.Sound (l.settle s signal).acquired.length := by
  cases htransition with
  | @acquires _ operation iterating hbegins hphase =>
    -- the only step that adds to the sum, and it starts from nothing
    have hnone := h.pending hphase
    rw [Ledger.settle_of_begins hbegins]
    refine ⟨?_, fun _ => hnone⟩
    rw [inFlight_suspend, hfree operation List.mem_cons_self, hnone]
    exact Nat.le_refl 1
  | begins hbegins hturn =>
    rw [Ledger.settle_of_begins hbegins]
    exact h.turn hturn
  | @opens operation handle iterating t outputs hpoint hturn =>
    have hopened : Sound { s.wake operation with phase := .opened, handle := some handle }
        (l.acquired.length + 1) := by
      refine ⟨?_, fun hpending => by cases hpending⟩
      -- one more handle was returned, but the request for it is no longer in flight
      have hless := inFlight_wake_lt hpoint
      have honce := h.once
      show (s.wake operation).inFlight + (l.acquired.length + 1) ≤ 1
      omega
    simp only [Ledger.settle, hpoint, List.length_append, List.length_singleton]
    exact hopened.turn hturn
  | @confirms operation iterating hpoint =>
    simp only [Ledger.settle, hpoint]
    exact ⟨(h.wake operation).once, (h.wake operation).pending⟩
  | @fails _ operation point e hpoint hfails =>
    have hsettle : (l.settle s signal).acquired = l.acquired := by
      cases hfails with
      | acquiring iterating => rfl
      | releasing iterating =>
        simp only [Ledger.settle, hpoint]
        rfl
      | cancelled =>
        cases point with
        | releasing iterating =>
          simp only [Ledger.settle, hpoint]
          rfl
        | acquiring iterating => simp only [Ledger.settle, hpoint]
        | waiting => simp only [Ledger.settle, hpoint]
    rw [hsettle]
    exact h.wake operation
  | @resumes operation t outputs hpoint hturn => exact (h.wake operation).turn hturn
  | receives hphase houtputs honce => exact ⟨h.once, h.pending⟩
  | ignores hignores =>
    rw [Ledger.settle_of_ignores hignores]
    exact h

/-- Asking for a handle puts one more request in flight. -/
theorem Transition.inFlight_of_acquire {signal : Signal} {outputs : List Output} {other : Nat}
    (h : Transition s signal t outputs) (hacquire : .acquire other ∈ outputs) :
    t.inFlight = s.inFlight + 1 := by
  cases h with
  | acquires iterating hbegins hphase => exact inFlight_suspend s _ (.acquiring iterating)
  | begins hbegins hturn => exact absurd hacquire (hturn.acquire_not_mem other)
  | opens hpoint hturn => exact absurd hacquire (hturn.acquire_not_mem other)
  | confirms hpoint => simp at hacquire
  | fails hpoint hfails => simp at hacquire
  | resumes hpoint hturn => exact absurd hacquire (hturn.acquire_not_mem other)
  | receives hphase houtputs honce => cases houtputs _ hacquire
  | ignores hignores => cases hacquire

/-! ### Runs -/

theorem Sound.follow {l : Ledger} {signals : List Signal} (h : s.Sound l.acquired.length)
    (hfree : Along (fun s signal => ¬ s.Overlaps signal) s signals) :
    (s.run signals).1.Sound (l.follow s signals).acquired.length := by
  induction signals generalizing l s with
  | nil => exact h
  | cons signal rest ih =>
    refine ih (l := l.record s signal) (h.transition (s.transition signal) ?_) hfree.2
    intro other hother
    by_contra hflight
    exact hfree.1 ⟨⟨other, hother⟩, hflight⟩

/-- If never more than one request is in flight, no step puts a second one there. -/
theorem along_of_inFlight {signals : List Signal}
    (h : ∀ before rest, signals = before ++ rest → (s.run before).1.inFlight ≤ 1) :
    Along (fun s signal => ¬ s.Overlaps signal) s signals := by
  induction signals generalizing s with
  | nil => trivial
  | cons signal rest ih =>
    refine ⟨?_, ih fun before after heq => h (signal :: before) after (by rw [heq]; rfl)⟩
    -- one request more than at least one would make two
    rintro ⟨⟨other, hother⟩, hflight⟩
    have hmore := (s.transition signal).inFlight_of_acquire hother
    have hone : (s.step signal).1.inFlight ≤ 1 := h [signal] rest rfl
    omega

/-- A log adds one item to the queue or one invocation of the callback, or nothing. -/
theorem Transition.log_growth {d : Rpc.LogDelivery} {outputs : List Output}
    (h : Transition s (.log d) t outputs) :
    s.queue.length ≤ t.queue.length ∧ outputs.length + t.queue.length ≤ s.queue.length + 1 := by
  cases h with
  | acquires iterating hbegins hphase => cases hbegins
  | begins hbegins hturn => cases hbegins
  | fails hpoint hfails => cases hfails
  | @receives d items outputs hphase houtputs honce =>
    show s.queue.length ≤ (s.queue ++ items).length ∧
      outputs.length + (s.queue ++ items).length ≤ s.queue.length + 1
    rw [List.length_append]
    omega
  | ignores hignores => exact ⟨Nat.le_refl _, by rw [List.length_nil]; omega⟩

theorem run_logs_growth (d : Rpc.LogDelivery) (n : Nat) (s : Subscription) :
    s.queue.length ≤ (s.run (List.replicate n (.log d))).1.queue.length ∧
      (s.run (List.replicate n (.log d))).2.length +
        (s.run (List.replicate n (.log d))).1.queue.length ≤ s.queue.length + n := by
  induction n generalizing s with
  | zero => exact ⟨Nat.le_refl _, Nat.le_of_eq (Nat.zero_add _)⟩
  | succ n ih =>
    have hfirst := (s.transition (.log d)).log_growth
    have hrest := ih (s.step (.log d)).1
    show s.queue.length ≤ ((s.step (.log d)).1.run (List.replicate n (.log d))).1.queue.length ∧
      ((s.step (.log d)).2 ++ ((s.step (.log d)).1.run (List.replicate n (.log d))).2).length +
        ((s.step (.log d)).1.run (List.replicate n (.log d))).1.queue.length ≤
      s.queue.length + (n + 1)
    rw [List.length_append]
    omega

/-- A log is passed on at most as often as it is passed in. -/
theorem deliveries_logs_le (s : Subscription) (d : Rpc.LogDelivery) (n : Nat) :
    s.deliveries (List.replicate n (.log d)) ≤ n := by
  have hgrowth := run_logs_growth d n s
  have hcallbacks := List.length_filter_le Output.isCallback (s.run (List.replicate n (.log d))).2
  rw [deliveries]
  omega

/-- **When a subscription is acquired once.** In a run at most one request for a handle is in flight or
has succeeded, and no log is passed on twice, just when no operation asks for a handle while another one
waits for its own. -/
theorem acquiresOnce_iff (event : BoundEvent) (address : Address) (hasCallback : Bool)
    (signals : List Signal) :
    AcquiresOnce (new event address hasCallback) signals ↔
      Along (fun s signal => ¬ s.Overlaps signal) (new event address hasCallback) signals := by
  constructor
  · intro h
    refine along_of_inFlight fun before rest heq => ?_
    have honce := h.once before rest heq
    omega
  · intro hfree
    have hnew : (new event address hasCallback).Sound Ledger.empty.acquired.length :=
      ⟨Nat.zero_le 1, fun _ => rfl⟩
    have honce : ∀ before rest, signals = before ++ rest →
        ((new event address hasCallback).run before).1.inFlight +
          ((new event address hasCallback).ledger before).acquired.length ≤ 1 := by
      rintro before rest rfl
      exact (hnew.follow (along_append.mp hfree).1).once
    refine ⟨honce, fun before rest d heq => ?_⟩
    -- every live handle was acquired, and a log is passed on once for each of them
    have hlive : ((new event address hasCallback).ledger before).live.length ≤
        ((new event address hasCallback).ledger before).acquired.length :=
      (List.diff_sublist _ _).length_le
    have hdelivered := deliveries_logs_le ((new event address hasCallback).run before).1 d
      ((new event address hasCallback).ledger before).live.length
    have hbefore := honce before rest heq
    omega

/-- Two operations that begin before either has its handle: each gets one, and a log that both handles
pass reaches the callback twice. -/
theorem not_acquiresOnce_overlapping :
    ¬ AcquiresOnce (new pinged ⟨List.replicate 20 0, rfl⟩ true)
        [.start 0, .start 1, .acquired 0 (.ok 0), .acquired 1 (.ok 1)] ∧
      ((new pinged ⟨List.replicate 20 0, rfl⟩ true).run
          [.start 0, .start 1, .acquired 0 (.ok 0), .acquired 1 (.ok 1)]).1.deliveries
        (List.replicate 2 (.log (.ok ⟨.bytes [], .list [], .bytes []⟩))) = 2 := by
  refine ⟨fun h => ?_, by decide +kernel⟩
  have honce := h.once [.start 0, .start 1] [.acquired 0 (.ok 0), .acquired 1 (.ok 1)] rfl
  exact absurd honce (by decide)

end Subscription

end LedgerAbi
