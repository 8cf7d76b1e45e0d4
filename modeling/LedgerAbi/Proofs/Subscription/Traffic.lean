/-
What iteration steps ask of the queue, and what is put into it.

* `Traffic` — how often iteration steps turned to the queue during a run, how many items and
  end marks were put into it, and how many steps gave up waiting;
* `Traffic.Balances` — requests of steps were met, given up or still wait, and what met none
  is still queued;
* `Traffic.Balances.follow` — this balance holds at the end of every run.

Design notes: an end mark comes into the queue from the transport, when the release of a
handle is confirmed, or at once where there is no handle.  The last can happen in a turn of
any operation that closes, so it is read off the turn (`closesAtOnce`).
-/
import LedgerAbi.Proofs.Subscription.Handles

namespace LedgerAbi

/-- How often iteration steps turned to the queue, how many items and end marks were put into it, and
how many steps were given up while they waited. -/
structure Traffic where
  asked : Nat
  put : Nat
  givenUp : Nat

namespace Subscription

/-! ### Counting -/

/-- Whether an iteration step turns to the queue at a signal. -/
def asks (s : Subscription) : Signal → Nat
  | .next _ =>
    if s.hasCallback then 0
    else match s.phase with
      | .pending => 0
      | .opened => 1
      | .closed => if s.queue.isEmpty then 0 else 1
  | .acquired operation (.ok _) => if s.point? operation = some (.acquiring true) then 1 else 0
  | _ => 0

/-- Whether a subscription is closed in a turn that asks for no release, and so marks the end. -/
def closesAtOnce (s : Subscription) (turn : Subscription × List Output) : Nat :=
  if s.phase ≠ .closed ∧ turn.1.phase = .closed ∧ turn.2.filterMap Output.release? = [] then 1 else 0

/-- Whether an item or an end mark is put into the queue at a signal: for what the transport passes,
when the release of a handle is confirmed, and when there is no handle to release. -/
def puts (s : Subscription) : Signal → Nat
  | .log d =>
    match s.phase, s.receive d with
    | .opened, .ok _ => if s.hasCallback then 0 else 1
    | _, _ => 0
  | .released operation (.ok ()) =>
    match s.point? operation with
    | some (.releasing _) => 1
    | _ => 0
  | .close operation => s.closesAtOnce (s.step (.close operation))
  | .next operation => s.closesAtOnce (s.step (.next operation))
  | .resume operation => s.closesAtOnce (s.step (.resume operation))
  | _ => 0

/-- Whether a step that waits is given up at a signal. -/
def givesUp (s : Subscription) : Signal → Nat
  | .cancel operation => if s.point? operation = some .waiting then 1 else 0
  | _ => 0

end Subscription

namespace Traffic

def empty : Traffic := ⟨0, 0, 0⟩

/-- The traffic after a signal. -/
def record (traffic : Traffic) (s : Subscription) (signal : Signal) : Traffic where
  asked := traffic.asked + s.asks signal
  put := traffic.put + s.puts signal
  givenUp := traffic.givenUp + s.givesUp signal

/-- The traffic after a run. -/
def follow : Traffic → Subscription → List Signal → Traffic
  | traffic, _, [] => traffic
  | traffic, s, signal :: rest => follow (traffic.record s signal) (s.step signal).1 rest

/-- Every request of a step was met, was given up or still waits, and what was put into the queue and
met none is still there. -/
def Balances (traffic : Traffic) (s : Subscription) : Prop :=
  traffic.asked + s.queue.length = s.waiting.length + traffic.put + traffic.givenUp

end Traffic

namespace Subscription

/-- The traffic of a run. -/
def traffic (s : Subscription) (signals : List Signal) : Traffic := Traffic.empty.follow s signals

/-! ### Who waits -/

variable {s t : Subscription} {operation : Nat} {point : Suspended} {signal : Signal}

theorem waiting_suspend (s : Subscription) (operation : Nat) (point : Suspended) :
    (s.suspend operation point).waiting =
      s.waiting ++ if point == .waiting then [operation] else [] :=
  suspendedAt_suspend (· == .waiting) s operation point

/-- Waking an operation takes it away from those that wait, if it is one of them. -/
theorem length_waiting_wake (hnodup : (s.suspended.map Prod.fst).Nodup)
    (hpoint : s.point? operation = some point) :
    (s.wake operation).waiting.length + (if point = .waiting then 1 else 0) = s.waiting.length := by
  have hwake : (s.wake operation).waiting = s.waiting.erase operation := by
    have hwaiting : s.waiting.Nodup := hnodup.sublist (List.filter_sublist.map _)
    rw [hwaiting.erase_eq_filter]
    exact suspendedAt_wake (· == .waiting) s operation
  have hmem : operation ∈ s.waiting ↔ (point == .waiting) = true :=
    mem_suspendedAt hnodup hpoint (· == .waiting)
  rw [hwake, List.length_erase]
  split
  · next hin =>
    have := List.length_pos_of_mem hin
    rw [if_pos (beq_iff_eq.mp (hmem.mp hin))]
    omega
  · next hout =>
    rw [if_neg fun heq => hout (hmem.mpr (beq_iff_eq.mpr heq))]
    rfl

/-! ### Turns -/

theorem closesAtOnce_of_phase {turn : Subscription × List Output} (h : turn.1.phase = s.phase) :
    s.closesAtOnce turn = 0 := by
  rw [closesAtOnce, if_neg fun hcloses => hcloses.1 (h ▸ hcloses.2.1)]

/-- Closing without a handle puts the mark into the queue at once. -/
theorem closeBy_traffic (s : Subscription) (operation : Nat) (iterating : Bool) :
    (s.closeBy operation iterating).1.waiting = s.waiting ∧
      (s.closeBy operation iterating).1.queue.length =
        s.queue.length + s.closesAtOnce (s.closeBy operation iterating) := by
  unfold closeBy
  split
  · exact ⟨rfl, by rw [closesAtOnce_of_phase (by rfl)]; rfl⟩
  · next hopen =>
    split
    · next handle hhandle =>
      refine ⟨?_, by rw [closesAtOnce, if_neg fun h => List.cons_ne_nil _ _ h.2.2]; rfl⟩
      rw [waiting_suspend]
      exact List.append_nil _
    · exact ⟨rfl, by rw [closesAtOnce, if_pos ⟨hopen, rfl, rfl⟩]; exact List.length_append⟩

/-- A step that turns to the queue takes something from it or waits. -/
theorem takeItem_traffic (s : Subscription) (operation : Nat) :
    (s.takeItem operation).1.waiting.length + s.closesAtOnce (s.takeItem operation) +
        s.queue.length =
      s.waiting.length + 1 + (s.takeItem operation).1.queue.length := by
  match hqueue : s.queue with
  | [] =>
    rw [closesAtOnce_of_phase (by rw [takeItem_nil hqueue]; rfl), takeItem_nil hqueue,
      waiting_suspend, List.length_append]
    show s.waiting.length + 1 + 0 + 0 = s.waiting.length + 1 + s.queue.length
    rw [hqueue, List.length_nil]
  | .delivery d :: rest =>
    rw [closesAtOnce_of_phase (by rw [takeItem_delivery hqueue]), takeItem_delivery hqueue,
      List.length_cons]
    show s.waiting.length + 0 + (rest.length + 1) = s.waiting.length + 1 + rest.length
    omega
  | .endMark :: rest =>
    obtain ⟨hwaiting, hlength⟩ := closeBy_traffic { s with queue := rest } operation true
    have hsame : s.closesAtOnce ({ s with queue := rest }.closeBy operation true) =
        closesAtOnce { s with queue := rest } ({ s with queue := rest }.closeBy operation true) := rfl
    rw [takeItem_endMark hqueue, hwaiting, hlength, hsame, List.length_cons]
    show s.waiting.length + _ + (rest.length + 1) = s.waiting.length + 1 + (rest.length + _)
    omega

/-! ### The balance -/

theorem length_waiting_suspend_acquiring (s : Subscription) (operation : Nat) (iterating : Bool) :
    (s.suspend operation (.acquiring iterating)).waiting.length = s.waiting.length := by
  rw [waiting_suspend]
  exact congrArg List.length (List.append_nil s.waiting)

theorem next_traffic (s : Subscription) (operation : Nat) :
    (s.step (.next operation)).1.waiting.length + s.puts (.next operation) + s.queue.length =
      s.waiting.length + s.asks (.next operation) + (s.step (.next operation)).1.queue.length := by
  have htake := takeItem_traffic s operation
  simp only [puts, asks, step]
  split
  · rw [closesAtOnce_of_phase (by rfl)]
  · cases hphase : s.phase with
    | pending =>
      rw [closesAtOnce_of_phase (by rfl)]
      exact congrArg (· + s.queue.length) (length_waiting_suspend_acquiring s operation true)
    | opened =>
      simp only
      omega
    | closed =>
      simp only
      split
      · rw [closesAtOnce_of_phase (by rfl)]
      · omega

/-- With a handle at hand, closing asks for its release first. -/
theorem closesAtOnce_takeItem_of_handle {handle : Nat} (h : s.handle = some handle)
    (hopened : s.phase = .opened) (operation : Nat) : s.closesAtOnce (s.takeItem operation) = 0 := by
  match hqueue : s.queue with
  | [] => exact closesAtOnce_of_phase (by rw [takeItem_nil hqueue]; rfl)
  | .delivery d :: rest => exact closesAtOnce_of_phase (by rw [takeItem_delivery hqueue])
  | .endMark :: rest =>
    have hrelease : ({ s with queue := rest }.closeBy operation true).2 =
        [.release operation handle] := by
      simp only [closeBy, hopened, h]
    rw [takeItem_endMark hqueue, closesAtOnce, hrelease]
    exact if_neg fun hcloses => List.cons_ne_nil _ _ hcloses.2.2

theorem acquired_traffic (hnodup : (s.suspended.map Prod.fst).Nodup) (operation : Nat)
    (answer : Except Error Nat) :
    (s.step (.acquired operation answer)).1.waiting.length + s.queue.length =
      s.waiting.length + s.asks (.acquired operation answer) +
        (s.step (.acquired operation answer)).1.queue.length := by
  simp only [step]
  split
  · next iterating hpoint =>
    have hwake : (s.wake operation).waiting.length = s.waiting.length := length_waiting_wake hnodup hpoint
    cases answer with
    | error e => exact congrArg (· + s.queue.length) hwake
    | ok handle =>
      simp only [asks, hpoint]
      cases iterating with
      | true =>
        have htake := takeItem_traffic
          { s.wake operation with phase := .opened, handle := some handle } operation
        rw [closesAtOnce_takeItem_of_handle rfl rfl, show Subscription.waiting
          { s.wake operation with phase := .opened, handle := some handle } =
            (s.wake operation).waiting from rfl, hwake] at htake
        exact htake
      | false => exact congrArg (· + s.queue.length) hwake
  · next hpoint =>
    cases answer with
    | error e => rfl
    | ok handle =>
      simp only [asks]
      rw [if_neg (hpoint true)]
      rfl

theorem released_traffic (hnodup : (s.suspended.map Prod.fst).Nodup) (operation : Nat)
    (answer : Except Error Unit) :
    (s.step (.released operation answer)).1.waiting.length + s.puts (.released operation answer) +
        s.queue.length =
      s.waiting.length + (s.step (.released operation answer)).1.queue.length := by
  simp only [step]
  split
  · next iterating hpoint =>
    have hwake : (s.wake operation).waiting.length = s.waiting.length := length_waiting_wake hnodup hpoint
    cases answer with
    | error e => exact congrArg (· + s.queue.length) hwake
    | ok _ =>
      simp only [puts, hpoint]
      show (s.wake operation).waiting.length + 1 + s.queue.length =
        s.waiting.length + (s.queue ++ [QueueItem.endMark]).length
      rw [hwake, List.length_append, List.length_singleton]
      omega
  · next hpoint =>
    cases answer with
    | error e => rfl
    | ok _ =>
      simp only [puts]
      rfl

/-- A step that waited and looks at the queue again has asked already. -/
theorem resume_traffic (hnodup : (s.suspended.map Prod.fst).Nodup) (operation : Nat) :
    (s.step (.resume operation)).1.waiting.length + s.puts (.resume operation) + s.queue.length =
      s.waiting.length + (s.step (.resume operation)).1.queue.length := by
  simp only [puts, step]
  split
  · next hpoint _ =>
    have hwake : (s.wake operation).waiting.length + 1 = s.waiting.length :=
      length_waiting_wake hnodup hpoint
    have htake := takeItem_traffic (s.wake operation) operation
    have hsame : (s.wake operation).closesAtOnce ((s.wake operation).takeItem operation) =
        s.closesAtOnce ((s.wake operation).takeItem operation) := rfl
    rw [hwake, hsame] at htake
    exact htake
  · rw [closesAtOnce_of_phase (by rfl)]
    rfl

theorem cancel_traffic (hnodup : (s.suspended.map Prod.fst).Nodup) (operation : Nat) :
    (s.step (.cancel operation)).1.waiting.length + s.givesUp (.cancel operation) =
      s.waiting.length ∧ (s.step (.cancel operation)).1.queue = s.queue := by
  simp only [step]
  split
  · next point hpoint =>
    have hwake := length_waiting_wake hnodup hpoint
    simp only [givesUp, hpoint, Option.some.injEq]
    exact ⟨hwake, rfl⟩
  · next hpoint => exact ⟨by simp [givesUp, hpoint], rfl⟩

theorem log_traffic (s : Subscription) (d : Rpc.LogDelivery) :
    (s.step (.log d)).1.waiting = s.waiting ∧
      (s.step (.log d)).1.queue.length = s.queue.length + s.puts (.log d) := by
  simp only [step, handleLog, puts]
  split
  · next hopened =>
    split
    · next hreceive => exact ⟨rfl, by simp [hopened, hreceive]⟩
    · next hreceive =>
      split
      · exact ⟨rfl, by simp [hopened, hreceive]⟩
      · next hcallback =>
        split
        · exact ⟨rfl, by simp [hopened, hreceive, hcallback, enqueue]⟩
        · exact ⟨rfl, by simp [hopened, hreceive, hcallback, enqueue]⟩
  · next hphase =>
    refine ⟨rfl, ?_⟩
    split
    · next hopened _ => exact absurd hopened hphase
    · rfl

/-- What a step adds to both sides of the balance is the same. -/
theorem step_traffic (hnodup : (s.suspended.map Prod.fst).Nodup) (signal : Signal) :
    (s.step signal).1.waiting.length + s.puts signal + s.givesUp signal + s.queue.length =
      s.waiting.length + s.asks signal + (s.step signal).1.queue.length := by
  cases signal with
  | start operation =>
    simp only [step, puts, givesUp, asks]
    split
    · rfl
    · rfl
    · exact congrArg (· + s.queue.length) (length_waiting_suspend_acquiring s operation false)
  | close operation =>
    obtain ⟨hwaiting, hlength⟩ := closeBy_traffic s operation false
    simp only [step, puts, givesUp, asks, hwaiting, hlength]
    omega
  | next operation => exact next_traffic s operation
  | acquired operation answer => exact acquired_traffic hnodup operation answer
  | released operation answer => exact released_traffic hnodup operation answer
  | resume operation => exact resume_traffic hnodup operation
  | cancel operation =>
    obtain ⟨hwaiting, hqueue⟩ := cancel_traffic hnodup operation
    rw [hqueue]
    simp only [puts, asks]
    omega
  | log d =>
    obtain ⟨hwaiting, hlength⟩ := log_traffic s d
    rw [hwaiting, hlength]
    simp only [givesUp, asks]
    omega

end Subscription

namespace Traffic

open Subscription

variable {s : Subscription} {traffic : Traffic} {signals : List Signal}

theorem Balances.step (h : traffic.Balances s) (hnodup : (s.suspended.map Prod.fst).Nodup)
    (signal : Signal) : (traffic.record s signal).Balances (s.step signal).1 := by
  have hstep := step_traffic hnodup signal
  rw [Balances] at h
  show traffic.asked + s.asks signal + (s.step signal).1.queue.length =
    (s.step signal).1.waiting.length + (traffic.put + s.puts signal) +
      (traffic.givenUp + s.givesUp signal)
  omega

theorem Balances.follow (h : traffic.Balances s) (hnumbered : s.Numbered signals) :
    (traffic.follow s signals).Balances (s.run signals).1 := by
  induction signals generalizing traffic s with
  | nil => exact h
  | cons signal rest ih =>
    exact ih (h.step (List.nodup_append.mp hnumbered).1 signal)
      ((s.transition signal).numbered hnumbered)

end Traffic

end LedgerAbi
