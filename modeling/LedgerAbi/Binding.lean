/-
Bindings: the ABI of a contract tied to an address and to settings.

* `Binding.ofValue` reads and checks a whole ABI once;
* `Binding.function` and `Binding.event` find an entry by its signature, or by its name if no other
  entry has it;
* `Binding.encode` and `Binding.signatures` work without a ledger;
* `Binding.atAddress` is the same binding at another address.
-/
import LedgerAbi.Call.Payload
import LedgerAbi.Event.Log

namespace LedgerAbi

/-- A function that a binding can call. -/
structure BoundFunction where
  signature : Text
  entry : Entry

/-- An event that a binding can decode and subscribe to, with the topic of its signature. -/
structure BoundEvent where
  signature : Text
  topic : Bytes
  entry : Entry

namespace BoundFunction

def ofEntry (e : Entry) : Except Error BoundFunction := do
  let signature ← e.fullName
  .ok ⟨signature, e⟩

end BoundFunction

namespace BoundEvent

def ofEntry (e : Entry) : Except Error BoundEvent := do
  let signature ← e.fullName
  let topic ← e.topic
  .ok ⟨signature, topic, e⟩

end BoundEvent

/-- A contract as its users see it. The bytecode is kept as text and is read when it is needed. -/
structure Binding where
  abi : Value
  config : Config
  address : Option Address
  bytecode : Option Text
  account : Option Address
  objectReturn : Bool
  functions : List BoundFunction
  events : List BoundEvent
  constructor : Option Entry

/-- An item put into a list: in the place of the item with the same signature, or at the end. -/
def putBound {α : Type} (signature : α → Text) (item : α) : List α → List α
  | [] => [item]
  | other :: rest =>
    if signature other = signature item then item :: rest
    else other :: putBound signature item rest

namespace Binding

/-- An address value, if it is not empty. -/
def optionalAddress (v : Value) : Except Error (Option Address) :=
  if v.isTruthy then (Address.ofValue v).map some else .ok none

/-- A bytecode value in hexadecimal form, if it is not empty. -/
def optionalBytecode (v : Value) : Except Error (Option Text) :=
  if v.isTruthy then v.wireHex.map some else .ok none

/-- Adds the entries of an ABI to a binding, in order. -/
def addEntries (b : Binding) : List Entry → Except Error Binding
  | [] => .ok b
  | e :: rest =>
    match e.kind with
    | .function => do
      let f ← BoundFunction.ofEntry e
      addEntries { b with functions := putBound BoundFunction.signature f b.functions } rest
    | .event => do
      let event ← BoundEvent.ofEntry e
      addEntries { b with events := putBound BoundEvent.signature event b.events } rest
    | .constructor => addEntries { b with constructor := some e } rest

/-- A binding for an ABI document. Empty values of address, bytecode and account stand for none. -/
def ofValue (abi : Value) (config : Config) (address bytecode account : Value) (objectReturn : Bool) :
    Except Error Binding := do
  let address ← optionalAddress address
  let bytecode ← optionalBytecode bytecode
  let account ← optionalAddress account
  let entries ← Entry.listOfValue abi
  addEntries {
    abi, config, address, bytecode, account, objectReturn,
    functions := [], events := [], constructor := none } entries

/-- The address as a value, empty without one. -/
def addressValue (b : Binding) : Value :=
  match b.address with
  | some a => .text a.hex
  | none => .none

/-- The account as a value, empty without one. -/
def accountValue (b : Binding) : Value :=
  match b.account with
  | some a => .text a.hex
  | none => .none

/-- The bytecode as a value, empty without one. -/
def bytecodeValue (b : Binding) : Value :=
  match b.bytecode with
  | some t => .text t
  | none => .none

/-- The same ABI and settings at another address. -/
def atAddress (b : Binding) (address : Value) : Except Error Binding :=
  ofValue b.abi b.config address b.bytecodeValue b.accountValue b.objectReturn

/-- The item with a signature, or else the only one whose signature has a name before its list. -/
def find {α : Type} (signature : α → Text) (kind : EntryKind) (items : List α) (name : Text) :
    Except LookupFailure α :=
  match items.find? fun item => signature item = name with
  | some item => .ok item
  | none =>
    match items.filter fun item => displayName (signature item) = name with
    | [] => .error (.notFound kind name)
    | [item] => .ok item
    | found => .error (.overloaded kind name (found.map signature))

def function? (b : Binding) (name : Text) : Except LookupFailure BoundFunction :=
  find BoundFunction.signature .function b.functions name

def function (b : Binding) (name : Text) : Except Error BoundFunction :=
  (b.function? name).mapError .lookup

def event (b : Binding) (name : Text) : Except Error BoundEvent :=
  (find BoundEvent.signature .event b.events name).mapError .lookup

/-- The call data of a function as capital hexadecimal digits. -/
def encode (b : Binding) (name : Text) (args : List Value) : Except Error Text := do
  let f ← b.function name
  let data ← callData (some f.entry) args .none
  .ok (Hex.ofBytes data)

/-- Kind, signature and selector of every function, and kind, signature and topic of every event. -/
def signatures (b : Binding) : Except Error (List (EntryKind × Text × Text)) := do
  let functions ← b.functions.mapM fun f => do
    let selector ← f.entry.selector
    .ok (EntryKind.function, f.signature, Hex.ofBytes selector)
  let events ← b.events.mapM fun e => do
    let topic ← e.entry.topic
    .ok (EntryKind.event, e.signature, Hex.ofBytes topic)
  .ok (functions ++ events)

/-- The names of the parts and operations of a binding, which hide functions of the same name. -/
def ownNames : List Text := [
  "abi", "transport", "config", "address", "bytecode", "account", "object_return", "functions",
  "events", "function", "event", "at", "deploy", "encode", "signatures", "_lookup"]

/-- The names that every object answers to. -/
def commonNames : List Text := [
  "__annotations__", "__class__", "__delattr__", "__dict__", "__dir__", "__doc__", "__eq__",
  "__format__", "__ge__", "__getattr__", "__getattribute__", "__getstate__", "__gt__", "__hash__",
  "__init__", "__init_subclass__", "__le__", "__lt__", "__module__", "__ne__", "__new__",
  "__reduce__", "__reduce_ex__", "__repr__", "__setattr__", "__sizeof__", "__str__",
  "__subclasshook__", "__weakref__"]

/-- The binding in words. -/
def shown (b : Binding) : Text :=
  "Contract(" ++ (match b.address with
    | some a => a.hex
    | none => "undeployed") ++ ")"

end Binding

end LedgerAbi
