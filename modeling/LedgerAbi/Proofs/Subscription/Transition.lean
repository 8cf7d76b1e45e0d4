/-
What a signal does to a subscription.

An operation runs in turns: from its beginning, or from the point where it was
suspended, until it is suspended again or ends.  Nothing else happens during a turn.

* `Subscription.Turn` — what an operation can do in one turn, once the subscription
  is not pending;
* `Subscription.Transition` — what a signal can do: begin an operation, go on with
  it, end it, or pass a log on;
* `Subscription.transition` — every step is such a transition;
* `Subscription.Along` — what holds of every step of a run.

Design notes: what is said of runs is proved once for each transition and once for
each turn, so the transition function itself is opened here only.  Asking for a
handle is a transition of its own: no operation does so but at its beginning.
-/
import LedgerAbi.Subscription.Machine

namespace LedgerAbi

/-- The operation that a signal begins. -/
def Signal.begins? : Signal → Option Nat
  | .start operation => some operation
  | .close operation => some operation
  | .next operation => some operation
  | _ => none

/-- The operation and the handle of a request to release. -/
def Output.release? : Output → Option (Nat × Nat)
  | .release operation handle => some (operation, handle)
  | _ => none

/-- True for what only an operation gives: a request to the transport or its own end. -/
def Output.isOfOperation : Output → Bool
  | .acquire _ => true
  | .release _ _ => true
  | .completed _ _ => true
  | _ => false

/-- How an iteration step ends that takes a delivery. -/
def Completion.ofDelivery : EventDelivery → Completion
  | .ok decoded => .event decoded
  | .error e => .failed e

namespace Subscription

/-- The queue as it is, or without the end mark in front of it. -/
def IsPast (s : Subscription) (rest : List QueueItem) : Prop :=
  rest = s.queue ∨ s.queue = .endMark :: rest

/-- One turn of an operation. -/
inductive Turn (operation : Nat) (s : Subscription) : Subscription → List Output → Prop
  | ends (c : Completion) (rest : List QueueItem) (hrest : s.IsPast rest) :
      Turn operation s { s with queue := rest } [.completed operation c]
  | returns (d : EventDelivery) (rest : List QueueItem) (hqueue : s.queue = .delivery d :: rest) :
      Turn operation s { s with queue := rest } [.completed operation (.ofDelivery d)]
  | waits (hqueue : s.queue = []) : Turn operation s (s.suspend operation .waiting) []
  | closes (iterating : Bool) (rest : List QueueItem) (hrest : s.IsPast rest)
      (hphase : s.phase ≠ .closed) (hhandle : s.handle = none) :
      Turn operation s (({ s with queue := rest, phase := .closed }).enqueue .endMark)
        [.completed operation (afterRelease iterating)]
  | releases (iterating : Bool) (rest : List QueueItem) (handle : Nat) (hrest : s.IsPast rest)
      (hphase : s.phase ≠ .closed) (hhandle : s.handle = some handle) :
      Turn operation s
        (({ s with queue := rest, phase := .closed, handle := none }).suspend operation
          (.releasing iterating))
        [.release operation handle]

/-- The failure that ends an operation suspended at a point. -/
inductive Fails (operation : Nat) : Suspended → Signal → Error → Prop
  | acquiring (iterating : Bool) (e : Error) :
      Fails operation (.acquiring iterating) (.acquired operation (.error e)) e
  | releasing (iterating : Bool) (e : Error) :
      Fails operation (.releasing iterating) (.released operation (.error e)) e
  | cancelled (point : Suspended) : Fails operation point (.cancel operation) (.fault .cancelled)

/-- Signals that come too late or too early to concern anyone: answers to operations that did not
ask, and logs to a subscription that is not open. -/
def Ignores (s : Subscription) : Signal → Prop
  | .acquired operation _ => ∀ iterating, s.point? operation ≠ some (.acquiring iterating)
  | .released operation _ => ∀ iterating, s.point? operation ≠ some (.releasing iterating)
  | .resume operation => s.point? operation = some .waiting → s.queue = []
  | .cancel operation => s.point? operation = none
  | .log _ => s.phase ≠ .opened
  | _ => False

/-- What a signal can do. -/
inductive Transition (s : Subscription) : Signal → Subscription → List Output → Prop
  | acquires {signal : Signal} {operation : Nat} (iterating : Bool)
      (hbegins : signal.begins? = some operation) (hphase : s.phase = .pending) :
      Transition s signal (s.suspend operation (.acquiring iterating)) [.acquire operation]
  | begins {signal : Signal} {operation : Nat} {t : Subscription} {outputs : List Output}
      (hbegins : signal.begins? = some operation) (hturn : Turn operation s t outputs) :
      Transition s signal t outputs
  | opens {operation handle : Nat} {iterating : Bool} {t : Subscription} {outputs : List Output}
      (hpoint : s.point? operation = some (.acquiring iterating))
      (hturn : Turn operation { s.wake operation with phase := .opened, handle := some handle }
        t outputs) :
      Transition s (.acquired operation (.ok handle)) t outputs
  | confirms {operation : Nat} {iterating : Bool}
      (hpoint : s.point? operation = some (.releasing iterating)) :
      Transition s (.released operation (.ok ())) ((s.wake operation).enqueue .endMark)
        [.completed operation (afterRelease iterating)]
  | fails {signal : Signal} {operation : Nat} {point : Suspended} {e : Error}
      (hpoint : s.point? operation = some point) (hfails : Fails operation point signal e) :
      Transition s signal (s.wake operation) [.completed operation (.failed e)]
  | resumes {operation : Nat} {t : Subscription} {outputs : List Output}
      (hpoint : s.point? operation = some .waiting) (hturn : Turn operation (s.wake operation) t outputs) :
      Transition s (.resume operation) t outputs
  | receives {d : Rpc.LogDelivery} {items : List QueueItem} {outputs : List Output}
      (hphase : s.phase = .opened) (houtputs : ∀ o ∈ outputs, o.isOfOperation = false)
      (honce : items.length + outputs.length ≤ 1) :
      Transition s (.log d) { s with queue := s.queue ++ items } outputs
  | ignores {signal : Signal} (hignores : s.Ignores signal) : Transition s signal s []

/-! ### Turns -/

theorem turn_closeBy (s : Subscription) (operation : Nat) (iterating : Bool)
    {rest : List QueueItem} (hrest : s.IsPast rest) :
    Turn operation s ({ s with queue := rest }.closeBy operation iterating).1
      ({ s with queue := rest }.closeBy operation iterating).2 := by
  unfold closeBy
  split
  · exact .ends _ rest hrest
  · next hphase =>
    split
    · next handle hhandle => exact .releases iterating rest handle hrest hphase hhandle
    · next hhandle => exact .closes iterating rest hrest hphase hhandle

theorem takeItem_nil {s : Subscription} (h : s.queue = []) (operation : Nat) :
    s.takeItem operation = (s.suspend operation .waiting, []) := by
  rw [takeItem, h]

theorem takeItem_delivery {s : Subscription} {d : EventDelivery} {rest : List QueueItem}
    (h : s.queue = .delivery d :: rest) (operation : Nat) :
    s.takeItem operation = ({ s with queue := rest }, [.completed operation (.ofDelivery d)]) := by
  rw [takeItem, h]
  cases d <;> rfl

theorem takeItem_endMark {s : Subscription} {rest : List QueueItem} (h : s.queue = .endMark :: rest)
    (operation : Nat) : s.takeItem operation = { s with queue := rest }.closeBy operation true := by
  rw [takeItem, h]

theorem turn_takeItem (s : Subscription) (operation : Nat) :
    Turn operation s (s.takeItem operation).1 (s.takeItem operation).2 := by
  match hqueue : s.queue with
  | [] =>
    rw [takeItem_nil hqueue]
    exact .waits hqueue
  | .delivery d :: rest =>
    rw [takeItem_delivery hqueue]
    exact .returns d rest hqueue
  | .endMark :: rest =>
    rw [takeItem_endMark hqueue]
    exact turn_closeBy s operation true (Or.inr hqueue)

theorem turn_ends (s : Subscription) (operation : Nat) (c : Completion) :
    Turn operation s s [.completed operation c] := .ends c s.queue (Or.inl rfl)

/-! ### Steps -/

theorem transition_start (s : Subscription) (operation : Nat) :
    Transition s (.start operation) (s.step (.start operation)).1 (s.step (.start operation)).2 := by
  simp only [step]
  split
  · exact .begins rfl (turn_ends s operation _)
  · exact .begins rfl (turn_ends s operation _)
  · next hphase => exact .acquires false rfl hphase

theorem transition_next (s : Subscription) (operation : Nat) :
    Transition s (.next operation) (s.step (.next operation)).1 (s.step (.next operation)).2 := by
  simp only [step]
  split
  · exact .begins rfl (turn_ends s operation _)
  · -- a closed subscription with an empty queue is at its end, any other goes on like an open one
    split
    · next hphase => exact .acquires true rfl hphase
    · split
      · exact .begins rfl (turn_ends s operation _)
      · exact .begins rfl (turn_takeItem s operation)
    · exact .begins rfl (turn_takeItem s operation)

theorem transition_acquired (s : Subscription) (operation : Nat) (answer : Except Error Nat) :
    Transition s (.acquired operation answer) (s.step (.acquired operation answer)).1
      (s.step (.acquired operation answer)).2 := by
  simp only [step]
  split
  · next iterating hpoint =>
    cases answer with
    | error e => exact .fails hpoint (.acquiring iterating e)
    | ok handle =>
      refine .opens hpoint ?_
      cases iterating with
      | true => exact turn_takeItem _ operation
      | false => exact turn_ends _ operation _
  · next hpoint => exact .ignores fun iterating h => hpoint iterating h

theorem transition_released (s : Subscription) (operation : Nat) (answer : Except Error Unit) :
    Transition s (.released operation answer) (s.step (.released operation answer)).1
      (s.step (.released operation answer)).2 := by
  simp only [step]
  split
  · next iterating hpoint =>
    cases answer with
    | error e => exact .fails hpoint (.releasing iterating e)
    | ok _ => exact .confirms hpoint
  · next hpoint => exact .ignores fun iterating h => hpoint iterating h

theorem transition_resume (s : Subscription) (operation : Nat) :
    Transition s (.resume operation) (s.step (.resume operation)).1
      (s.step (.resume operation)).2 := by
  simp only [step]
  split
  · next hpoint _ => exact .resumes hpoint (turn_takeItem _ operation)
  · next hnot =>
    refine .ignores fun hpoint => ?_
    cases hqueue : s.queue with
    | nil => rfl
    | cons item rest => exact absurd hqueue (hnot item rest hpoint)

theorem transition_cancel (s : Subscription) (operation : Nat) :
    Transition s (.cancel operation) (s.step (.cancel operation)).1
      (s.step (.cancel operation)).2 := by
  simp only [step]
  split
  · next point hpoint => exact .fails hpoint (.cancelled point)
  · next hpoint => exact .ignores hpoint

theorem transition_log (s : Subscription) (d : Rpc.LogDelivery) :
    Transition s (.log d) (s.step (.log d)).1 (s.step (.log d)).2 := by
  simp only [step, handleLog]
  split
  · next hphase =>
    split
    · next e _ =>
      have h := @Transition.receives s d [] [.raised e] hphase (by simp [Output.isOfOperation])
        (by simp)
      rwa [List.append_nil] at h
    · next delivery _ =>
      split
      · have h := @Transition.receives s d [] [.callback delivery] hphase
          (by simp [Output.isOfOperation]) (by simp)
        rwa [List.append_nil] at h
      · split
        · exact .receives hphase (by simp) (by simp)
        · exact .receives hphase (by simp) (by simp)
  · next hphase => exact .ignores hphase

/-- **Every step is a transition.** -/
theorem transition (s : Subscription) (signal : Signal) :
    Transition s signal (s.step signal).1 (s.step signal).2 := by
  cases signal with
  | start operation => exact transition_start s operation
  | close operation => exact .begins rfl (turn_closeBy s operation false (Or.inl rfl))
  | next operation => exact transition_next s operation
  | acquired operation answer => exact transition_acquired s operation answer
  | released operation answer => exact transition_released s operation answer
  | resume operation => exact transition_resume s operation
  | cancel operation => exact transition_cancel s operation
  | log d => exact transition_log s d

/-! ### Where operations are suspended -/

/-- A turn suspends its own operation at most, behind all others. -/
theorem Turn.suspended_eq {s t : Subscription} {operation : Nat} {outputs : List Output}
    (h : Turn operation s t outputs) :
    t.suspended = s.suspended ∨ ∃ point, t.suspended = s.suspended ++ [(operation, point)] := by
  cases h with
  | ends => exact Or.inl rfl
  | returns => exact Or.inl rfl
  | waits => exact Or.inr ⟨_, rfl⟩
  | closes => exact Or.inl rfl
  | releases => exact Or.inr ⟨_, rfl⟩

theorem mem_of_point? {s : Subscription} {operation : Nat} {point : Suspended}
    (h : s.point? operation = some point) : (operation, point) ∈ s.suspended := by
  rw [point?, List.lookup_eq_some_iff] at h
  obtain ⟨before, after, heq, -⟩ := h
  rw [heq]
  exact List.mem_append_right _ List.mem_cons_self

/-! ### Runs -/

theorem run_append (s : Subscription) (first second : List Signal) :
    (s.run (first ++ second)).1 = ((s.run first).1.run second).1 := by
  induction first generalizing s with
  | nil => rfl
  | cons signal rest ih => exact ih (s.step signal).1

/-- Something holds of every step of a run. -/
def Along (P : Subscription → Signal → Prop) : Subscription → List Signal → Prop
  | _, [] => True
  | s, signal :: rest => P s signal ∧ Along P (s.step signal).1 rest

theorem along_append {P : Subscription → Signal → Prop} {s : Subscription}
    {first second : List Signal} :
    Along P s (first ++ second) ↔ Along P s first ∧ Along P (s.run first).1 second := by
  induction first generalizing s with
  | nil => exact (iff_of_eq (true_and _)).symm
  | cons signal rest ih =>
    rw [List.cons_append, Along, Along, ih, and_assoc]
    rfl

/-- An event without inputs, for runs with fixed signals. -/
def pinged : BoundEvent where
  signature := "Pinged()"
  topic := []
  entry := ⟨.event, .text "Pinged", [], [], .nonpayable, false, by decide⟩

end Subscription

end LedgerAbi
