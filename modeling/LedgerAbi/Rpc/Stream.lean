/-
Log streams over a socket.

A client opens a session, connects a socket in it and asks for logs. A reader then turns the frames of
the socket into deliveries until the stream ends, the subscriber closes it or a text stops the reader.
Closing ends the reader, the socket and the session, in this order.

* `openStream` gives the steps of opening for every way in which they can turn out;
* `Reader.step` is the reader, one frame at a time;
* `Stream.step` is a stream with the reader in it, which can be closed at any time;
* `closeStream` gives the steps of closing.
-/
import LedgerAbi.Rpc.Client

namespace LedgerAbi.Rpc

/-- How a step on the network turns out. -/
inductive StepOutcome where
  | done
  /-- A failure that the client foresees. -/
  | clientError (cause : Text)
  /-- Any other failure. -/
  | failure (cause : Fault)

/-- What opening a stream came to: the client afterwards, the steps taken, and the failure if there was
one. -/
structure OpenResult where
  client : Client
  actions : List NetworkAction
  outcome : Except Error Unit

/-- Opens a stream of logs on the socket with a number. A foreseen failure closes the session; another
failure leaves it as it is. -/
def openStream (c : Client) (socket : Nat) (address signature : Value) (connecting sending : StepOutcome) :
    OpenResult :=
  let connect := NetworkAction.connect c.streamUrl c.headers
  let refused (cause : Text) : Error := .transport (.subscribeFailed c.streamUrl cause)
  match connecting with
  | .clientError cause => ⟨c, [connect, .closeSession], .error (refused cause)⟩
  | .failure cause => ⟨c, [connect], .error (.fault cause)⟩
  | .done =>
    match address.wireHex with
    | .error cause => ⟨c, [connect], .error cause⟩
    | .ok address =>
      let (next, body) := c.nextRequest subscribeMethod (subscribeParams address signature)
      match sending with
      | .clientError cause => ⟨next, [connect, .closeSession], .error (refused cause)⟩
      | .failure cause => ⟨next, [connect], .error (.fault cause)⟩
      | .done => ⟨next, [connect, .send socket body], .ok ()⟩

/-- The steps of closing a stream once its reader has ended, and the failure if there was one. A reader
that ended by being cancelled ended well; a socket that fails to close leaves the session as it is. -/
def closeStream (socket : Nat) (reading closing ending : StepOutcome) :
    List NetworkAction × Except Error Unit :=
  let failed : StepOutcome → Option Error
    | .done => none
    | .clientError _ => some (.fault .network)
    | .failure cause => some (.fault cause)
  match failed closing with
  | some e => ([.closeSocket socket], .error e)
  | none => match failed ending with
    | some e => ([.closeSocket socket, .closeSession], .error e)
    | none => match reading with
      | .failure .cancelled => ([.closeSocket socket, .closeSession], .ok ())
      | _ => match failed reading with
        | some e => ([.closeSocket socket, .closeSession], .error e)
        | none => ([.closeSocket socket, .closeSession], .ok ())

/-- What a socket yields. -/
inductive Frame where
  | text (t : Text)
  | binary (b : Bytes)
  /-- An error message, after which nothing is read. -/
  | error (cause : Text)
  /-- A failure of reading. -/
  | failure (cause : Text)
  /-- The end of the stream. -/
  | ended

/-- How far a reader is. -/
inductive Reader where
  | reading
  | finished
  /-- Stopped at a text that it could not read; nobody is told. -/
  | failed (cause : Fault)
deriving Inhabited

/-- The failure that the end of a stream is delivered as. -/
def streamEnded : Error := .transport (.ended "Subscription stream ended by the node")

namespace Reader

/-- The reader after a frame, and what it delivers. The end of the stream is delivered unless the
subscriber is closing it. -/
def step (nesting : Nat) (r : Reader) (closing : Bool) (frame : Frame) : Reader × List LogDelivery :=
  match r with
  | finished => (finished, [])
  | failed cause => (failed cause, [])
  | reading =>
    let last : List LogDelivery := if closing then [] else [.error streamEnded]
    match frame with
    | .text t => match dispatch nesting t with
      | .ok told => (reading, told.toList)
      | .error cause => (failed cause, [])
    | .binary _ => (reading, [])
    | .error cause => (finished, .error (.transport (.websocket cause)) :: last)
    | .failure cause => (finished, .error (.transport (.websocket cause)) :: last)
    | .ended => (finished, last)

/-- The reader when it is given up. -/
def close : Reader → Reader
  | failed cause => failed cause
  | _ => finished

/-- How a reader turns out to have ended when it is given up. -/
def outcome : Reader → StepOutcome
  | reading => .failure .cancelled
  | finished => .done
  | failed cause => .failure cause

end Reader

/-- A stream: how far its reader is, whether the subscriber is closing it, and how deep its texts may be
nested. -/
structure Stream where
  reader : Reader
  closing : Bool
  nesting : Nat

/-- What can happen to a stream. -/
inductive StreamSignal where
  /-- The socket yields a frame. -/
  | frame (f : Frame)
  /-- The subscriber closes the stream. -/
  | close

namespace Stream

/-- A stream that has just been opened. -/
def opened (nesting : Nat) : Stream := ⟨.reading, false, nesting⟩

/-- A stream that could not be opened. -/
def refused (nesting : Nat) : Stream := ⟨.finished, false, nesting⟩

/-- The stream after a signal, and what it delivers. Closing it gives up its reader. -/
def step (s : Stream) : StreamSignal → Stream × List LogDelivery
  | .frame f =>
    let (reader, deliveries) := s.reader.step s.nesting s.closing f
    ({ s with reader := reader }, deliveries)
  | .close => ({ s with reader := s.reader.close, closing := true }, [])

end Stream

end LedgerAbi.Rpc
