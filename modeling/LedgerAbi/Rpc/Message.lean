/-
Messages between a client and a ledger node.

* `request` is the body of a request;
* `responseResult` takes the result out of a response, or the error that it reports;
* `parseRawResult` and `parseLogRecord` read the two kinds of results;
* `dispatch` tells what a text from a log stream delivers: nothing, a log, or a failure; a text that is
  nested too deep stops its reader.
-/
import LedgerAbi.Call.Payload
import LedgerAbi.Event.Log
import LedgerAbi.Json.Parser

namespace LedgerAbi.Rpc

/-- How a call is put to the ledger. -/
inductive CallKind where
  /-- Evaluated without modifying the state of the ledger. -/
  | simulate
  /-- Submitted as a transaction. -/
  | submit
deriving DecidableEq, Inhabited

/-- The method that a node offers for a kind of call. -/
def CallKind.method : CallKind → Text
  | simulate => "transact.CallTxSim"
  | submit => "transact.CallTxSync"

/-- The method that a node offers for log streams. -/
def subscribeMethod : Text := "events.SubscribeLogs"

/-- The body of a request. -/
def request (id : Nat) (method : Text) (params : Members) : Value :=
  .dict [("jsonrpc", .text "2.0"), ("id", .int id), ("method", .text method), ("params", .dict params)]

/-- The parameters of a request for a log stream. -/
def subscribeParams (address : Text) (signature : Value) : Members :=
  [("Address", .text address), ("Signature", signature)]

/-- The error that the members of a response report. -/
def reportedError (members : Members) : Except Error Unit :=
  match members.get? "error" with
  | none => .ok ()
  | some (.dict details) => .error (.transport (.errorResponse (Members.getD details "message" .none)))
  | some error => .error (.transport (.errorResponse error))

/-- The result of a response from a node. -/
def responseResult (url : Text) (response : Value) : Except Error Value :=
  match response with
  | .dict members => do
    reportedError members
    match Members.get? members "result" with
    | some result => .ok result
    | none => .error (.transport (.missingResult url response))
  | _ => .error (.transport (.notAnObject url response))

/-- Why a part of a result could not be read: it is malformed, or it is of a kind for which the
readers have no rule. -/
inductive Unreadable where
  | malformed
  | fault (cause : Fault)

/-- The members of an optional part: those of an object, none of an empty value. -/
def optionalMembers (v : Value) : Except Unreadable Members :=
  match v with
  | .dict members => .ok members
  | _ => if v.isTruthy then .error .malformed else .ok []

/-- The bytes of an optional hexadecimal text. -/
def optionalHex (v : Value) : Except Unreadable (Option Bytes) :=
  if !v.isTruthy then .ok none
  else match v with
    | .text t => match Hex.read? t with
      | some b => .ok (some b)
      | none => .error .malformed
    | _ => .error (.fault .wrongKind)

/-- The integer of an exception code. A fraction is cut off. -/
def exceptionCode (v : Value) : Except Unreadable Int :=
  match v with
  | .int i => .ok i
  | .bool b => .ok (if b then 1 else 0)
  | .float x => match x.truncated? with
    | some i => .ok i
    | none => if x = .nan then .error .malformed else .error (.fault .infiniteNumber)
  | .text t => match t.decimal? with
    | some i => .ok i
    | none => .error .malformed
  | _ => .error (.fault .wrongKind)

/-- The exception that a result reports, if there is one. -/
def reportedException (v : Value) : Except Unreadable (Option LedgerException) :=
  if !v.isTruthy then .ok none
  else match v with
    | .dict members => do
      let code ← exceptionCode (Members.getD members "Code" (.int 0))
      .ok (some ⟨code, Members.getD members "Exception" (.text [])⟩)
    | _ => .error .malformed

/-- The parts of a result. -/
def readRawResult (response : Value) : Except Unreadable RawResult := do
  let members : Members ← match response with
    | .dict members => .ok members
    | _ => .error .malformed
  let result ← optionalMembers (members.getD "Result" .none)
  let returnData ← optionalHex (result.getD "Return" .none)
  let receipt ← optionalMembers (members.getD "Receipt" .none)
  let exception := members.getD "Exception" .none
  let contractAddress ← optionalHex (receipt.getD "ContractAddress" .none)
  let exception ← reportedException exception
  .ok ⟨returnData.getD [], contractAddress, exception⟩

/-- Reads the result of a call. -/
def parseRawResult (response : Value) : Except Error RawResult :=
  match readRawResult response with
  | .ok result => .ok result
  | .error .malformed => .error (.transport (.malformedResult response))
  | .error (.fault cause) => .error (.fault cause)

/-- Reads a log of a log stream. -/
def parseLogRecord (log : Value) : Except Error LogRecord := do
  let members ← log.members
  let topics ← (((members.get? "Topics").bind Value.truthy?).getD (.list [])).items
  .ok {
    address := members.getD "Address" (.text []),
    topics := .list topics,
    data := ((members.get? "Data").bind Value.truthy?).getD (.text []) }

/-- What a handler of a log stream receives: a log or a failure. -/
abbrev LogDelivery := Except Error LogRecord

/-- The log inside a message of a log stream. -/
def streamedLog (members : Members) : Except Unreadable (Option Value) := do
  let params ← optionalMembers (members.getD "params" .none)
  let result ← optionalMembers (params.getD "result" .none)
  match result.getD "Log" .none with
  | .none => .ok none
  | log => .ok (some log)

/-- What an object in a log stream delivers, by its members. -/
def deliveryOfMembers (malformed : LogDelivery) (members : Members) : Option LogDelivery :=
  match members.get? "error" with
  | some error => some (.error (.transport (.subscriptionError error)))
  | none => match streamedLog members with
    | .error _ => some malformed
    | .ok none => none
    | .ok (some log) => match parseLogRecord log with
      | .ok record => some (.ok record)
      | .error _ => some malformed

/-- What a text of a log stream delivers. One that is nested too deep is no malformed message: its
reader stops at it. -/
def dispatch (nesting : Nat) (raw : Text) : Except Fault (Option LogDelivery) :=
  let malformed : LogDelivery := .error (.transport (.malformedMessage raw))
  match Json.parse nesting raw with
  | .error .tooDeep => .error .tooDeep
  | .ok (.dict members) => .ok (deliveryOfMembers malformed members)
  | _ => .ok (some malformed)

end LedgerAbi.Rpc
