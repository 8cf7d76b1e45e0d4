/-
Sessions: bindings and subscriptions that share one transport.

A session is a value. It records what is sent, what callbacks and handlers receive, and which waiting
iteration steps complete, so that the effect of a step can be read off it.

* `Link` is the transport of a session: one that follows a script, or a client of a node;
* `Reply` says how the transport behaves during a step;
* `Session.act` gives a signal to a subscription and lets everything run until nothing can progress.
-/
import LedgerAbi.Call.Invocation
import LedgerAbi.Rpc.Stream
import LedgerAbi.Subscription.Machine

namespace LedgerAbi

/-- Something that a session does to the outside. -/
inductive Action where
  | call (kind : Rpc.CallKind) (payload : Payload)
  | subscribe (address signature : Text)
  | closeHandle (handle : Nat)
  | network (a : Rpc.NetworkAction)

/-- Who receives the logs of a handle or a socket. -/
inductive Receiver where
  | subscription (index : Nat)
  /-- A handler that records what it receives, and fails afterwards if it is told to. -/
  | recorder (label : Nat)
  | nobody

/-- A socket of a session. -/
structure Socket where
  receiver : Receiver
  stream : Rpc.Stream

/-- The transport of a session. -/
inductive Link where
  /-- Follows a script; holds the receivers of its handles. -/
  | scripted (handles : List Receiver)
  | node (client : Rpc.Client) (sockets : List Socket)

/-- How the transport behaves during a step. -/
structure Reply where
  /-- The failure of a scripted transport. -/
  raised : Option Text
  /-- The answer of a scripted transport. -/
  result : RawResult
  post : Rpc.PostOutcome
  connecting : Rpc.StepOutcome
  sending : Rpc.StepOutcome

/-- Who made a delivery. -/
inductive Source where
  | call
  | subscription (index : Nat)
  | socket (label : Nat)

/-- What is delivered where nothing failed. -/
inductive Content where
  | result (r : CallResult)
  | event (e : DecodedEvent)
  | log (record : LogRecord)

/-- One invocation of a callback or a handler. -/
structure Delivery where
  source : Source
  content : Except Error Content

/-- An iteration step that waits, as the operation of a subscription. -/
structure Wait where
  number : Nat
  subscription : Nat
  operation : Nat

/-- The state of a session, with the records of the step that is being performed. -/
structure Session where
  link : Link
  bindings : List Binding
  subscriptions : List Subscription
  streams : List Nat
  waits : List Wait
  nextWait : Nat
  nextOperation : Nat
  sent : List Action
  deliveries : List Delivery
  resolved : List (Nat × Completion)
  completed : List (Nat × Completion)
  raised : Option Error

namespace Session

/-- A session that nothing has happened in. -/
def new (link : Link) (bindings : List Binding) : Session where
  link := link
  bindings := bindings
  subscriptions := []
  streams := []
  waits := []
  nextWait := 0
  nextOperation := 0
  sent := []
  deliveries := []
  resolved := []
  completed := []
  raised := none

/-- The session with the records of the last step cleared. -/
def fresh (s : Session) : Session :=
  { s with sent := [], deliveries := [], resolved := [], completed := [], raised := none }

def send (s : Session) (actions : List Action) : Session := { s with sent := s.sent ++ actions }

def deliver (s : Session) (d : Delivery) : Session := { s with deliveries := s.deliveries ++ [d] }

/-- A number for a new operation. -/
def newOperation (s : Session) : Session × Nat :=
  ({ s with nextOperation := s.nextOperation + 1 }, s.nextOperation)

/-- The failure of a scripted transport, if it is to fail. -/
def scriptedFailure (reply : Reply) : Option Error :=
  reply.raised.map fun text => .transport (.reported text)

/-- Puts a call to the transport. -/
def call (s : Session) (kind : Rpc.CallKind) (payload : Payload) (reply : Reply) :
    Session × Except Error RawResult :=
  match s.link with
  | .scripted _ =>
    let s := s.send [.call kind payload]
    match scriptedFailure reply with
    | some e => (s, .error e)
    | none => (s, .ok reply.result)
  | .node client sockets =>
    let (next, action) := client.post kind payload
    ({ s with link := .node next sockets }.send [.network action], client.outcome reply.post)

/-- Asks the transport for logs. The answer is the number of a handle. -/
def openLogs (s : Session) (address signature : Value) (receiver : Nat → Receiver) (reply : Reply) :
    Session × Except Error Nat :=
  match s.link with
  | .scripted handles =>
    let s := s.send [.subscribe address.plain signature.plain]
    match scriptedFailure reply with
    | some e => (s, .error e)
    | none =>
      ({ s with link := .scripted (handles ++ [receiver handles.length]) }, .ok handles.length)
  | .node client sockets =>
    let number := sockets.length
    let opened := Rpc.openStream client number address signature reply.connecting reply.sending
    let connected := match reply.connecting with
      | .done => true
      | _ => false
    let socket : Socket := match opened.outcome with
      | .ok () => ⟨receiver number, .opened client.nesting⟩
      | .error _ => ⟨.nobody, .refused client.nesting⟩
    let sockets := if connected then sockets ++ [socket] else sockets
    let s := { s with link := .node opened.client sockets }.send (opened.actions.map .network)
    (s, opened.outcome.map fun () => number)

/-- Asks the transport to release a handle. -/
def closeLogs (s : Session) (handle : Nat) (reply : Reply) : Session × Except Error Unit :=
  match s.link with
  | .scripted _ =>
    let s := s.send [.closeHandle handle]
    match scriptedFailure reply with
    | some e => (s, .error e)
    | none => (s, .ok ())
  | .node client sockets =>
    let reading : Rpc.StepOutcome := match sockets[handle]? with
      | some socket => socket.stream.reader.outcome
      | none => .done
    let sockets := sockets.modify handle fun socket =>
      { socket with stream := (socket.stream.step .close).1 }
    let (actions, outcome) := Rpc.closeStream handle reading .done .done
    ({ s with link := .node client sockets }.send (actions.map .network), outcome)

/-- Notes how an operation ended: as the end of a waiting iteration step, or for the step itself. -/
def complete (s : Session) (index operation : Nat) (c : Completion) : Session :=
  match s.waits.find? fun w => w.subscription == index && w.operation == operation with
  | some w => { s with
      waits := s.waits.filter fun v => v.number != w.number,
      resolved := s.resolved ++ [(w.number, c)] }
  | none => { s with completed := s.completed ++ [(operation, c)] }

/-- Gives signals to a subscription one after the other. Requests to the transport are answered at once,
with further signals; each unit of fuel allows one signal. -/
def run (index : Nat) (reply : Reply) : Nat → List Signal → Session → Session
  | 0, _, s => s
  | _, [], s => s
  | fuel + 1, signal :: rest, s =>
    match s.subscriptions[index]? with
    | none => s
    | some sub =>
      let (sub, outputs) := sub.step signal
      let s := { s with subscriptions := s.subscriptions.set index sub }
      let (s, answers) := outputs.foldl (fun (s, answers) output =>
        match output with
        | .acquire operation =>
          let signature : Value := .text (Hex.ofBytes sub.event.topic)
          let (s, answer) :=
            s.openLogs (.text sub.address.hex) signature (fun _ => .subscription index) reply
          (s, answers ++ [Signal.acquired operation answer])
        | .release operation handle =>
          let (s, answer) := s.closeLogs handle reply
          (s, answers ++ [Signal.released operation answer])
        | .completed operation c => (s.complete index operation c, answers)
        | .callback d => (s.deliver ⟨.subscription index, d.map .event⟩, answers)
        | .raised e => ({ s with raised := some e }, answers)) (s, [])
      run index reply fuel (answers ++ rest) s

/-- How many signals one signal can lead to while the transport answers at once: acquiring, taking an
item and releasing. -/
def runFuel : Nat := 8

/-- Lets iteration steps that wait look at the queue, in order, as long as there is something in it. -/
def settle (index : Nat) (reply : Reply) : Nat → Session → Session
  | 0, s => s
  | fuel + 1, s =>
    match s.subscriptions[index]? with
    | none => s
    | some sub =>
      match sub.waiting, sub.queue with
      | operation :: _, _ :: _ =>
        settle index reply fuel (run index reply runFuel [.resume operation] s)
      | _, _ => s

/-- Gives a signal to a subscription and lets everything run until nothing can progress. -/
def act (s : Session) (index : Nat) (signal : Signal) (reply : Reply) : Session :=
  let s := run index reply runFuel [signal] s
  let waiting := match s.subscriptions[index]? with
    | some sub => sub.waiting.length
    | none => 0
  settle index reply waiting s

end Session

end LedgerAbi
