/-
The steps of a session and their answers.

* `Step` is what a user of bindings, subscriptions or the bare transport can ask for;
* `Answer` is what the user gets;
* `Session.perform` takes one step.
-/
import LedgerAbi.Session.Basic

namespace LedgerAbi

/-- How a call is made. -/
inductive CallMode where
  | awaited
  /-- With a callback, on a running event loop. -/
  | callback
  /-- With a callback, and cancelled before it begins. -/
  | cancelled
  /-- With a callback, where no event loop runs. -/
  | withoutLoop
deriving DecidableEq, Inhabited

/-- What a step asks of a session. Bindings, subscriptions and streams are named by their number. -/
inductive Step where
  | describe
  | function (name : Value)
  | member (name : Value)
  | event (name : Value)
  | signatures
  | encode (function : Value) (args : List Value)
  | atAddress (address : Value)
  | deploy (args : List Value)
  | call (function : Value) (args : List Value) (simulate address : Value) (mode : CallMode)
  | processResult (function : Value) (result : RawResult)
  | decodeLog (event : Value) (log : LogRecord)
  | subscribe (event : Value) (hasCallback : Bool) (address : Value)
  | start (subscription : Nat)
  | close (subscription : Nat)
  | state (subscription : Nat)
  | next (subscription : Nat)
  | drain (subscription : Nat)
  /-- The scripted transport passes something to the handler of a handle. -/
  | emit (handle : Nat) (d : Rpc.LogDelivery)
  /-- A socket yields a frame. -/
  | frame (socket : Nat) (f : Rpc.Frame)
  /-- The parts of the client of a node. -/
  | info
  /-- A call of the bare transport. -/
  | submit (kind : Rpc.CallKind) (payload : Payload)
  | openStream (address signature : Value)
  | closeStream (stream : Nat)

/-- How draining a subscription ends. -/
inductive DrainEnd where
  | stop
  | waiting
  | failed (e : Error)

/-- What a step gives. -/
inductive Answer where
  | binding (number : Option Nat) (b : Binding)
  | callee (c : Callee)
  | member (name : Text)
  | event (e : BoundEvent)
  | signatures (rows : List (EntryKind × Text × Text))
  | text (t : Text)
  | result (r : CallResult)
  /-- A call with a callback came to its end; true if it did not fail. -/
  | task (done : Bool)
  | cancelledTask
  | decoded (e : DecodedEvent)
  | subscription (number : Nat) (s : Subscription)
  | stop
  | waiting (number : Nat)
  | drained (events : List DecodedEvent) (ending : DrainEnd)
  | noAnswer
  | noHandle
  | client (c : Rpc.Client)
  | rawResult (r : RawResult)
  | stream (number : Nat)
  | failed (e : Error)

namespace Answer

def ofExcept {α : Type} (f : α → Answer) : Except Error α → Answer
  | .ok a => f a
  | .error e => failed e

end Answer

namespace Session

/-- Looks something up under a name given as a value. Only texts name anything. -/
def lookUp {α : Type} (kind : EntryKind) (find : Text → Except Error α) (name : Value) :
    Except Error α :=
  match name with
  | .text t => find t
  | v => if v.isKey then .error (.lookup (.notFound kind v.plain)) else .error (.fault .wrongKind)

/-- The callee that a value names; the empty value names the constructor. -/
def calleeOf (b : Binding) (name : Value) : Except Error Callee :=
  match name with
  | .none => b.callee none
  | _ => lookUp .function (fun t => b.callee (some t)) name

def eventOf (b : Binding) (name : Value) : Except Error BoundEvent := lookUp .event b.event name

/-- The answer to a request of a call, if one was sent. -/
def answerRequest (s : Session) (request : Option (Rpc.CallKind × Payload)) (reply : Reply) :
    Session × Except Error RawResult :=
  match request with
  | some (kind, payload) => s.call kind payload reply
  | none => (s, .ok .empty)

/-- Makes a call and waits for its outcome. -/
def invoke (s : Session) (i : Invocation) (reply : Reply) : Session × Except Error CallResult :=
  match i.step .scheduled .run with
  | (.finished outcome, _) => (s, outcome)
  | (stage, request) =>
    let (s, answer) := s.answerRequest request reply
    match i.step stage (.answer answer) with
    | (.finished outcome, _) => (s, outcome)
    | _ => (s, .ok (.value .none))

/-- Records an invocation of the callback of a call. -/
def deliverCallback (s : Session) : Option Invocation.Callback → Session
  | some (some e, _) => s.deliver ⟨.call, .error e⟩
  | some (none, some r) => s.deliver ⟨.call, .ok (.result r)⟩
  | _ => s

/-- Makes a call with a callback and lets it run to its end. -/
def invokeCallback (s : Session) (i : Invocation) (reply : Reply) : Session × Answer :=
  let answerOf : Invocation.Stage → Answer
    | .finished (.ok _) => .task true
    | _ => .task false
  match i.stepCallback .scheduled .run with
  | (.finished outcome, _, callback) =>
    (s.deliverCallback callback, answerOf (.finished outcome))
  | (stage, request, _) =>
    let (s, answer) := s.answerRequest request reply
    let (stage, _, callback) := i.stepCallback stage (.answer answer)
    (s.deliverCallback callback, answerOf stage)

/-- Makes a call in the way that is asked for. -/
def performCall (s : Session) (b : Binding) (i : Invocation) (mode : CallMode) (reply : Reply) :
    Session × Answer :=
  match mode with
  | .awaited =>
    let (s, outcome) := s.invoke i reply
    (s, .ofExcept .result outcome)
  | .callback => s.invokeCallback i reply
  | .cancelled =>
    let (_, _, callback) := i.stepCallback .scheduled .cancel
    (s.deliverCallback callback, .cancelledTask)
  | .withoutLoop => (s, .ofExcept (fun _ => .binding none b) (Invocation.schedule false))

/-- A binding added to the session. -/
def addBinding (s : Session) (b : Except Error Binding) : Session × Answer :=
  match b with
  | .ok b => ({ s with bindings := s.bindings ++ [b] }, .binding (some s.bindings.length) b)
  | .error e => (s, .failed e)

/-- Creates the contract of a binding and binds the address of the new contract. -/
def performDeploy (s : Session) (b : Binding) (args : List Value) (reply : Reply) : Session × Answer :=
  let i : Invocation := ⟨b, .constructor b.constructor, args, none, .none⟩
  let (s, outcome) := s.invoke i reply
  match outcome with
  | .ok (.value address) => s.addBinding (b.atAddress address)
  | .ok (.object _ _) => (s, .failed (.fault .wrongKind))
  | .error e => (s, .failed e)

/-- A new subscription to an event of a binding, at an address or else at that of the binding. -/
def performSubscribe (s : Session) (b : Binding) (name : Value) (hasCallback : Bool) (address : Value) :
    Session × Answer :=
  let subscription : Except Error Subscription := do
    let event ← eventOf b name
    let target := address.truthy?.getD b.addressValue
    match target with
    | .none => .error (.missingAddress .subscribe event.signature)
    | _ =>
      let address ← Address.ofValue target
      .ok (Subscription.new event address hasCallback)
  match subscription with
  | .ok sub =>
    ({ s with subscriptions := s.subscriptions ++ [sub] }, .subscription s.subscriptions.length sub)
  | .error e => (s, .failed e)

/-- The answer that shows a subscription. -/
def subscriptionAnswer (s : Session) (index : Nat) : Answer :=
  match s.subscriptions[index]? with
  | some sub => .subscription index sub
  | none => .failed (.fault .missingIndex)

/-- How an operation of the step ended. -/
def completion? (s : Session) (operation : Nat) : Option Completion := s.completed.lookup operation

/-- Starts or closes a subscription. -/
def performOperation (s : Session) (index : Nat) (signal : Nat → Signal) (reply : Reply) :
    Session × Answer :=
  let (s, operation) := s.newOperation
  let s := s.act index (signal operation) reply
  match s.completion? operation with
  | some (.failed e) => (s, .failed e)
  | _ => (s, s.subscriptionAnswer index)

/-- Takes one iteration step. One that has nothing to return goes on waiting. -/
def performNext (s : Session) (index : Nat) (reply : Reply) : Session × Answer :=
  let (s, operation) := s.newOperation
  let s := s.act index (.next operation) reply
  match s.completion? operation with
  | some (.event e) => (s, .decoded e)
  | some (.failed e) => (s, .failed e)
  | some _ => (s, .stop)
  | none => ({ s with
      waits := s.waits ++ [⟨s.nextWait, index, operation⟩],
      nextWait := s.nextWait + 1 }, .waiting s.nextWait)

/-- Takes iteration steps until one does not return an event; one that waits is given up. Each unit of
fuel allows one step. -/
def performDrain (index : Nat) (reply : Reply) :
    Nat → List DecodedEvent → Session → Session × Answer
  | 0, events, s => (s, .drained events .waiting)
  | fuel + 1, events, s =>
    let (s, operation) := s.newOperation
    let s := s.act index (.next operation) reply
    match s.completion? operation with
    | some (.event e) => performDrain index reply fuel (events ++ [e]) s
    | some (.failed e) => (s, .drained events (.failed e))
    | some _ => (s, .drained events .stop)
    | none => (s.act index (.cancel operation) reply, .drained events .waiting)

/-- How many items are queued for a subscription. -/
def queueLength (s : Session) (index : Nat) : Nat :=
  match s.subscriptions[index]? with
  | some sub => sub.queue.length
  | none => 0

/-- Passes deliveries to a receiver. A handler that fails keeps its failure to itself. -/
def receive (s : Session) (receiver : Receiver) (deliveries : List Rpc.LogDelivery) (reply : Reply) :
    Session :=
  match receiver with
  | .nobody => s
  | .recorder label => deliveries.foldl (fun s d => s.deliver ⟨.socket label, d.map .log⟩) s
  | .subscription index =>
    let s := deliveries.foldl (fun s d => run index reply runFuel [.log d] s) s
    let waiting := match s.subscriptions[index]? with
      | some sub => sub.waiting.length
      | none => 0
    settle index reply waiting s

/-- The scripted transport passes something to the handler of a handle, which may fail. -/
def performEmit (s : Session) (handle : Nat) (d : Rpc.LogDelivery) (reply : Reply) : Session × Answer :=
  match s.link with
  | .scripted handles =>
    match handles[handle]? with
    | some receiver =>
      let s := s.receive receiver [d] reply
      match s.raised with
      | some e => (s, .failed e)
      | none => (s, .noAnswer)
    | none => (s, .noHandle)
  | .node _ _ => (s, .noHandle)

/-- A socket yields a frame. -/
def performFrame (s : Session) (number : Nat) (f : Rpc.Frame) (reply : Reply) : Session × Answer :=
  match s.link with
  | .scripted _ => (s, .noHandle)
  | .node client sockets =>
    match sockets[number]? with
    | some socket =>
      let (stream, deliveries) := socket.stream.step (.frame f)
      let s := { s with link := .node client (sockets.set number { socket with stream := stream }) }
      (s.receive socket.receiver deliveries reply, .noAnswer)
    | none => (s, .noHandle)

/-- Opens a stream whose handler records what it receives. -/
def performOpenStream (s : Session) (address signature : Value) (reply : Reply) : Session × Answer :=
  let (s, outcome) := s.openLogs address signature .recorder reply
  match outcome with
  | .ok handle => ({ s with streams := s.streams ++ [handle] }, .stream s.streams.length)
  | .error e => (s, .failed e)

/-- Closes a stream. -/
def performCloseStream (s : Session) (number : Nat) (reply : Reply) : Session × Answer :=
  match s.streams[number]? with
  | none => (s, .failed (.fault .missingIndex))
  | some handle =>
    let (s, outcome) := s.closeLogs handle reply
    (s, .ofExcept (fun _ => .noAnswer) outcome)

/-- Takes a step that concerns a binding. -/
def performOn (s : Session) (b : Binding) (step : Step) (reply : Reply) : Session × Answer :=
  match step with
  | .describe => (s, .binding none b)
  | .function name => (s, .ofExcept .callee (calleeOf b name))
  | .member (.text name) => match b.member name with
    | .ok (.own name) => (s, .member name)
    | .ok (.callee c) => (s, .callee c)
    | .error e => (s, .failed e)
  | .member _ => (s, .failed (.fault .wrongKind))
  | .event name => (s, .ofExcept .event (eventOf b name))
  | .signatures => (s, .ofExcept .signatures b.signatures)
  | .encode name args => (s, .ofExcept .text (lookUp .function (fun t => b.encode t args) name))
  | .atAddress address => s.addBinding (b.atAddress address)
  | .deploy args => s.performDeploy b args reply
  | .call name args simulate address mode =>
    match calleeOf b name with
    | .error e => (s, .failed e)
    | .ok callee =>
      let simulate := match simulate with
        | .none => none
        | v => some v.isTruthy
      s.performCall b ⟨b, callee, args, simulate, address⟩ mode reply
  | .processResult name result => (s, .ofExcept .result do
      let callee ← calleeOf b name
      callee.processResult b.objectReturn result)
  | .decodeLog name log => (s, .ofExcept .decoded do
      let event ← eventOf b name
      LedgerAbi.decodeLog event.entry log)
  | .subscribe name hasCallback address => s.performSubscribe b name hasCallback address
  | _ => (s, .noAnswer)

/-- Takes a step, on the binding with a number where it concerns one. -/
def performStep (s : Session) (on : Nat) (step : Step) (reply : Reply) : Session × Answer :=
  match step with
  | .start index => s.performOperation index .start reply
  | .close index => s.performOperation index .close reply
  | .state index => (s, s.subscriptionAnswer index)
  | .next index => s.performNext index reply
  | .drain index => performDrain index reply (s.queueLength index + 2) [] s
  | .emit handle d => s.performEmit handle d reply
  | .frame number f => s.performFrame number f reply
  | .info => match s.link with
    | .node client _ => (s, .client client)
    | .scripted _ => (s, .noHandle)
  | .submit kind payload =>
    let (s, outcome) := s.call kind payload reply
    (s, .ofExcept .rawResult outcome)
  | .openStream address signature => s.performOpenStream address signature reply
  | .closeStream number => s.performCloseStream number reply
  | _ => match s.bindings[on]? with
    | some b => s.performOn b step reply
    | none => (s, .failed (.fault .missingIndex))

/-- Takes a step with fresh records. -/
def perform (s : Session) (on : Nat) (step : Step) (reply : Reply) : Session × Answer :=
  s.fresh.performStep on step reply

/-- The waiting iteration steps that completed in the last step, by number. -/
def resolvedInOrder (s : Session) : List (Nat × Completion) :=
  s.resolved.mergeSort fun a b => a.1 ≤ b.1

end Session

end LedgerAbi
