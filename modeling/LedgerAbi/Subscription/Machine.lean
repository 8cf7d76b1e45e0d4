/-
Subscriptions to the events of a contract.

A subscription is acquired from the transport once, passes on the logs that arrive while it is open,
and is closed for good. Its operations may overlap: starting is suspended while the transport acquires,
closing while it releases, and an iteration step while there is nothing to return. The machine has one
transition for each thing that can happen at such a point, so that a run is a list of signals.

* `Subscription.step` is the transition function;
* `Output` is what a transition does to the outside: requests to the transport, outcomes of operations,
  invocations of the callback;
* `Subscription.receive` decodes a log as it arrives.
-/
import LedgerAbi.Binding
import LedgerAbi.Rpc.Message

namespace LedgerAbi

/-- How far the life of a subscription is. It moves forward only. -/
inductive Phase where
  | pending
  | opened
  | closed
deriving DecidableEq, Inhabited

/-- What is delivered for a log: the event or a failure. -/
abbrev EventDelivery := Except Error DecodedEvent

/-- What is queued for iteration: a delivery, or the mark that there are no more. -/
inductive QueueItem where
  | delivery (d : EventDelivery)
  | endMark

/-- Where a suspended operation stands. An iteration step goes on after starting or closing. -/
inductive Suspended where
  | acquiring (iterating : Bool)
  | releasing (iterating : Bool)
  | waiting
deriving DecidableEq

/-- How an operation ends. -/
inductive Completion where
  | done
  /-- An iteration step returns an event. -/
  | event (e : DecodedEvent)
  /-- An iteration step finds the end. -/
  | stop
  | failed (e : Error)

/-- What a transition does to the outside. -/
inductive Output where
  /-- The transport is asked for the logs of an event at an address, on behalf of an operation. -/
  | acquire (operation : Nat)
  /-- The transport is asked to release a handle, on behalf of an operation. -/
  | release (operation handle : Nat)
  | completed (operation : Nat) (c : Completion)
  | callback (d : EventDelivery)
  /-- The handler of logs fails with an error that is delivered to nobody. -/
  | raised (e : Error)

/-- What can happen to a subscription. -/
inductive Signal where
  | start (operation : Nat)
  | close (operation : Nat)
  | next (operation : Nat)
  /-- The transport answers an operation that acquires. -/
  | acquired (operation : Nat) (answer : Except Error Nat)
  /-- The transport answers an operation that releases. -/
  | released (operation : Nat) (answer : Except Error Unit)
  /-- An operation that waits looks at the queue again. -/
  | resume (operation : Nat)
  /-- A suspended operation is given up. -/
  | cancel (operation : Nat)
  /-- The transport passes a log or a failure to the handler. -/
  | log (d : Rpc.LogDelivery)

/-- A subscription to an event at an address. -/
structure Subscription where
  event : BoundEvent
  address : Address
  hasCallback : Bool
  phase : Phase
  handle : Option Nat
  queue : List QueueItem
  suspended : List (Nat × Suspended)

namespace Subscription

/-- A subscription that nothing has happened to. -/
def new (event : BoundEvent) (address : Address) (hasCallback : Bool) : Subscription where
  event := event
  address := address
  hasCallback := hasCallback
  phase := .pending
  handle := none
  queue := []
  suspended := []

/-- The name of a phase. -/
def phaseName (s : Subscription) : Text :=
  match s.phase with
  | .pending => "pending"
  | .opened => "open"
  | .closed => "closed"

/-- The subscription in words. -/
def shown (s : Subscription) : Text :=
  "EventSubscription(" ++ s.event.signature ++ " @ " ++ s.address.hex ++ ", " ++ s.phaseName ++ ")"

/-- An operation suspended at a point. -/
def suspend (s : Subscription) (operation : Nat) (point : Suspended) : Subscription :=
  { s with suspended := s.suspended ++ [(operation, point)] }

/-- An operation that is no longer suspended. -/
def wake (s : Subscription) (operation : Nat) : Subscription :=
  { s with suspended := s.suspended.filter fun (o, _) => o != operation }

/-- Where an operation is suspended. -/
def point? (s : Subscription) (operation : Nat) : Option Suspended := s.suspended.lookup operation

/-- An item put at the end of the queue. -/
def enqueue (s : Subscription) (item : QueueItem) : Subscription :=
  { s with queue := s.queue ++ [item] }

/-- How a released operation ends. -/
def afterRelease (iterating : Bool) : Completion := if iterating then .stop else .done

/-- Closes the subscription on behalf of an operation. A subscription without a handle has nothing to
release; another operation that is releasing is not waited for. -/
def closeBy (s : Subscription) (operation : Nat) (iterating : Bool) : Subscription × List Output :=
  match s.phase with
  | .closed => (s, [.completed operation (afterRelease iterating)])
  | _ =>
    match s.handle with
    | some handle =>
      (({ s with phase := .closed, handle := none }).suspend operation (.releasing iterating),
        [.release operation handle])
    | none =>
      (({ s with phase := .closed }).enqueue .endMark,
        [.completed operation (afterRelease iterating)])

/-- An iteration step takes the first item of the queue, or waits for one. The step that takes the end
mark closes the subscription. -/
def takeItem (s : Subscription) (operation : Nat) : Subscription × List Output :=
  match s.queue with
  | [] => (s.suspend operation .waiting, [])
  | .delivery (.ok e) :: rest => ({ s with queue := rest }, [.completed operation (.event e)])
  | .delivery (.error e) :: rest => ({ s with queue := rest }, [.completed operation (.failed e)])
  | .endMark :: rest => ({ s with queue := rest }).closeBy operation true

/-- What a log amounts to: an event, a failure that is delivered, or one that is not. -/
def receive (s : Subscription) (d : Rpc.LogDelivery) : Except Error EventDelivery :=
  match d with
  | .error e => .ok (.error e)
  | .ok log =>
    match decodeLog s.event.entry log with
    | .ok event => .ok (.ok event)
    | .error (.decode cause) => .ok (.error (.decode cause))
    | .error e => .error e

/-- The end of the stream, told from other failures. -/
def isEnd : Rpc.LogDelivery → Bool
  | .error (.transport cause) => cause.isEnded
  | _ => false

/-- A log or a failure arrives. Only an open subscription passes it on. The end of the stream goes to
the callback as it is, and into the queue as the end mark. -/
def handleLog (s : Subscription) (d : Rpc.LogDelivery) : Subscription × List Output :=
  match s.phase with
  | .opened =>
    match s.receive d with
    | .error e => (s, [.raised e])
    | .ok delivery =>
      if s.hasCallback then (s, [.callback delivery])
      else if isEnd d then (s.enqueue .endMark, [])
      else (s.enqueue (.delivery delivery), [])
  | _ => (s, [])

/-- What happens to a subscription on a signal. -/
def step (s : Subscription) : Signal → Subscription × List Output
  | .start operation =>
    match s.phase with
    | .closed => (s, [.completed operation (.failed (.subscriptionClosed s.event.signature))])
    | .opened => (s, [.completed operation .done])
    | .pending => (s.suspend operation (.acquiring false), [.acquire operation])
  | .close operation => s.closeBy operation false
  | .next operation =>
    if s.hasCallback then (s, [.completed operation (.failed (.fault .callbackIteration))])
    else match s.phase with
      | .pending => (s.suspend operation (.acquiring true), [.acquire operation])
      | .closed =>
        if s.queue.isEmpty then (s, [.completed operation .stop]) else s.takeItem operation
      | .opened => s.takeItem operation
  | .acquired operation answer =>
    match s.point? operation with
    | some (.acquiring iterating) =>
      let s := s.wake operation
      match answer with
      | .error e => (s, [.completed operation (.failed e)])
      | .ok handle =>
        let s := { s with phase := .opened, handle := some handle }
        if iterating then s.takeItem operation else (s, [.completed operation .done])
    | _ => (s, [])
  | .released operation answer =>
    match s.point? operation with
    | some (.releasing iterating) =>
      let s := s.wake operation
      match answer with
      | .error e => (s, [.completed operation (.failed e)])
      | .ok () => (s.enqueue .endMark, [.completed operation (afterRelease iterating)])
    | _ => (s, [])
  | .resume operation =>
    match s.point? operation, s.queue with
    | some .waiting, _ :: _ => (s.wake operation).takeItem operation
    | _, _ => (s, [])
  | .cancel operation =>
    match s.point? operation with
    | some _ => (s.wake operation, [.completed operation (.failed (.fault .cancelled))])
    | none => (s, [])
  | .log d => s.handleLog d

/-- The subscription after a run of signals, and everything that the run does to the outside. -/
def run (s : Subscription) : List Signal → Subscription × List Output
  | [] => (s, [])
  | signal :: rest =>
    let (s, first) := s.step signal
    let (s, later) := s.run rest
    (s, first ++ later)

/-- The operations that wait, in the order in which they began to. -/
def waiting (s : Subscription) : List Nat :=
  (s.suspended.filter fun (_, point) => point == .waiting).map Prod.fst

end Subscription

end LedgerAbi
