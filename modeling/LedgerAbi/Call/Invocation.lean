/-
One call of a contract, from its arguments to its outcome.

A call is checked and encoded in full before anything is sent, is sent at most once, and takes its
outcome from the one answer. The same call can be awaited or given a callback.

* `Callee` is a function of a binding or its constructor, declared or not;
* `Invocation.request` is what a call sends;
* `Callee.processResult` is what a call makes of an answer;
* `Invocation.step` runs a call signal by signal, and `Invocation.stepCallback` with a callback.
-/
import LedgerAbi.Binding
import LedgerAbi.Rpc.Message

namespace LedgerAbi

/-- What can be called: a function, or the constructor, which a contract need not declare. -/
inductive Callee where
  | function (f : BoundFunction)
  | constructor (entry : Option Entry)

namespace Callee

def entry? : Callee → Option Entry
  | function f => some f.entry
  | constructor entry => entry

def isConstructor : Callee → Bool
  | function _ => false
  | constructor _ => true

/-- The signature of a function; a constructor has none. -/
def signature? : Callee → Option Text
  | function f => some f.signature
  | constructor _ => none

def inputCount (c : Callee) : Nat :=
  match c.entry? with
  | some e => e.inputs.length
  | none => 0

/-- True if calls are simulated where the caller does not say how. -/
def isReadOnly (c : Callee) : Bool :=
  match c.entry? with
  | some e => e.isReadOnly
  | none => false

/-- The callee in words. -/
def shown (c : Callee) : Text := "ContractFunction(" ++ c.signature?.getD "constructor" ++ ")"

/-- The failure that an exception of the ledger is. Without a message its code is written out, which
takes a number that is not too long. -/
def executionFailure (r : RawResult) (e : LedgerException) : Error :=
  if r.isReverted then
    match decodeRevertReason r.returnData with
    | .ok reason => .execution (.reverted reason e.code)
    | .error cause => cause
  else if !e.message.isTruthy && exceedsDigitLimit e.code then .fault .overlongInteger
  else .execution (.failed e.message e.code)

/-- The outcome of a call from its answer. An exception is never a value; a constructor resolves to the
address of the new contract. -/
def processResult (c : Callee) (objectReturn : Bool) (r : RawResult) : Except Error CallResult :=
  match r.exception with
  | some e => .error (executionFailure r e)
  | none =>
    match c with
    | constructor _ =>
      match r.contractAddress with
      | some (b :: rest) => .ok (.value (.text (Hex.ofBytes (b :: rest))))
      | _ => .error (.decode .noContractAddress)
    | function f => unpackOutput f.entry (.bytes r.returnData) objectReturn

end Callee

namespace Binding

/-- The callee with a name; without a name it is the constructor. -/
def callee (b : Binding) (name : Option Text) : Except Error Callee :=
  match name with
  | none => .ok (.constructor b.constructor)
  | some name => (b.function name).map .function

/-- What a name stands for on a binding. -/
inductive Member where
  | own (name : Text)
  | callee (c : Callee)

/-- The member with a name: a part of the binding, its constructor, or a function. Names with a leading
underscore are never functions. -/
def member (b : Binding) (name : Text) : Except Error Member :=
  if name ∈ ownNames ∨ name ∈ commonNames then .ok (.own name)
  else if name = "constructor" then .ok (.callee (.constructor b.constructor))
  else if name.head? = some (.char '_') then .error (.fault (.unknownMember none))
  else match b.function? name with
    | .ok f => .ok (.callee (.function f))
    | .error cause => .error (.fault (.unknownMember (some cause)))

end Binding

/-- A call of a callee with arguments. `simulate` says how it is put to the ledger, if the caller says
so; an empty address stands for the address of the binding. -/
structure Invocation where
  binding : Binding
  callee : Callee
  args : List Value
  simulate : Option Bool
  address : Value

namespace Invocation

/-- The address that is called, empty if there is none. -/
def target (i : Invocation) : Value := i.address.truthy?.getD i.binding.addressValue

/-- How the call is put to the ledger. A creation is always a transaction. -/
def kind (i : Invocation) : Rpc.CallKind :=
  if i.simulate.getD i.callee.isReadOnly && !i.callee.isConstructor then .simulate else .submit

/-- Checks that there is an address to call and that the number of arguments is right. -/
def validate (i : Invocation) : Except Error Unit :=
  if !i.target.isTruthy && !i.callee.isConstructor then
    .error (.missingAddress .call (i.callee.signature?.getD []))
  else if i.args.length ≠ i.callee.inputCount then
    .error (.arity (.arguments i.callee.signature? i.callee.inputCount i.args.length))
  else .ok ()

/-- What the call sends. The address is written out before that, even where a constructor has no use for
it. -/
def request (i : Invocation) : Except Error (Rpc.CallKind × Payload) := do
  i.validate
  let payload ← Payload.build i.callee.entry? i.args i.binding.config i.binding.accountValue i.target
    i.binding.bytecodeValue
  if i.target.isOverlong then .error (.fault .overlongInteger) else .ok (i.kind, payload)

/-- The outcome of the call from what the transport answers. -/
def outcome (i : Invocation) (answer : Except Error RawResult) : Except Error CallResult := do
  i.callee.processResult i.binding.objectReturn (← answer)

/-- How far a call is. -/
inductive Stage where
  /-- Nothing has been done yet. -/
  | scheduled
  /-- The request has been sent. -/
  | waiting
  | finished (outcome : Except Error CallResult)

/-- What can happen to a call. -/
inductive Signal where
  | run
  | answer (a : Except Error RawResult)
  | cancel

/-- The stage after a signal, and the request if one is sent. -/
def step (i : Invocation) : Stage → Signal → Stage × Option (Rpc.CallKind × Payload)
  | .scheduled, .run => match i.request with
    | .ok request => (.waiting, some request)
    | .error e => (.finished (.error e), none)
  | .scheduled, .cancel => (.finished (.error (.fault .cancelled)), none)
  | .waiting, .answer a => (.finished (i.outcome a), none)
  | .waiting, .cancel => (.finished (.error (.fault .cancelled)), none)
  | stage, _ => (stage, none)

/-- What a callback receives: a failure or a result. -/
abbrev Callback := Option Error × Option CallResult

/-- True for the outcome of a call that was given up. -/
def isCancelled : Except Error CallResult → Bool
  | .error (.fault .cancelled) => true
  | _ => false

/-- The arguments of the callback for an outcome. A call that was given up has no failure of its own. -/
def callbackOf (outcome : Except Error CallResult) : Callback :=
  if isCancelled outcome then (some (.fault .cancelled), none)
  else match outcome with
    | .error e => (some e, none)
    | .ok r => (none, some r)

/-- The stage after a signal, the request if one is sent, and the invocation of the callback when the
call finishes. -/
def stepCallback (i : Invocation) (stage : Stage) (signal : Signal) :
    Stage × Option (Rpc.CallKind × Payload) × Option Callback :=
  let (next, request) := i.step stage signal
  match stage, next with
  | .finished _, _ => (next, request, none)
  | _, .finished outcome => (next, request, some (callbackOf outcome))
  | _, _ => (next, request, none)

/-- The first stage of a call with a callback, which needs an event loop to run on. -/
def schedule (hasLoop : Bool) : Except Error Stage :=
  if hasLoop then .ok .scheduled else .error (.fault .noEventLoop)

end Invocation

end LedgerAbi
