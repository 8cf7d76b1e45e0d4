/-
A client of a ledger node.

Calls are posted as requests with numbers that count up. A client does not retry: whatever becomes of
a post is the outcome of the call.

* `Client.ofArguments` fills in the parts that follow from the address of the node;
* `Client.post` is the request of a call, `Client.outcome` what becomes of it.
-/
import LedgerAbi.Rpc.Message

namespace LedgerAbi.Rpc

/-- A client of the node at an address. It reads what the node sends down to a limit of nesting. -/
structure Client where
  url : Text
  streamUrl : Text
  headers : Value
  timeout : Value
  nesting : Nat
  nextId : Nat

/-- Something that a client does to the network. -/
inductive NetworkAction where
  | post (url : Text) (headers timeout body : Value)
  | connect (url : Text) (headers : Value)
  | send (socket : Nat) (body : Value)
  | closeSocket (socket : Nat)
  | closeSession

/-- What becomes of a post. -/
inductive PostOutcome where
  /-- A response that has been read already. -/
  | response (v : Value)
  /-- The text of a response. -/
  | text (t : Text)
  /-- A response that does not claim to be JSON. -/
  | wrongContentType (status : Int)
  | connectionError (cause : Text)
  | timeout

namespace Client

/-- The headers of a client that is given none. -/
def standardHeaders : Value := .dict [("Content-Type", .text "application/json")]

/-- A client with its optional parts filled in: log streams come from the address of the node with the
scheme changed, and empty headers stand for the standard ones. -/
def ofArguments (url : Text) (streamUrl headers : Value) (timeout : Value) : Client where
  url := url
  streamUrl := match streamUrl.truthy? with
    | some (.text t) => t
    | _ => Text.replaceFirst url "http" "ws"
  headers := headers.truthy?.getD standardHeaders
  timeout := timeout
  nesting := Json.usualNesting
  nextId := 1

/-- The client after the next request, and the body of that request. -/
def nextRequest (c : Client) (method : Text) (params : Members) : Client × Value :=
  ({ c with nextId := c.nextId + 1 }, request c.nextId method params)

/-- The client after posting a call, and the post. -/
def post (c : Client) (kind : CallKind) (payload : Payload) : Client × NetworkAction :=
  let (next, body) := c.nextRequest kind.method payload.toMembers
  (next, .post c.url c.headers c.timeout body)

/-- The result in the outcome of a post. A text that is nested too deep is a failure of its reader, and
not of the node. -/
def postResult (c : Client) (outcome : PostOutcome) : Except Error Value :=
  match outcome with
  | .response v => responseResult c.url v
  | .text t => match Json.parse c.nesting t with
    | .ok v => responseResult c.url v
    | .error .tooDeep => .error (.fault .tooDeep)
    | .error _ => .error (.transport (.malformedJson c.url))
  | .wrongContentType status => .error (.transport (.unexpectedStatus status c.url))
  | .connectionError cause => .error (.transport (.unreachable c.url cause))
  | .timeout => .error (.transport (.timeout c.url))

/-- The outcome of a call from the outcome of its post. -/
def outcome (c : Client) (outcome : PostOutcome) : Except Error RawResult := do
  parseRawResult (← c.postResult outcome)

end Client

end LedgerAbi.Rpc
