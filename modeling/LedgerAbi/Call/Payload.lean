/-
What is sent to the ledger: call data, and the payload that carries it.

* `callData` is the selector of a function with its encoded arguments, or the bytecode of a contract
  with the encoded arguments of its constructor;
* `Payload.build` adds account, target and settings;
* `Payload.toMembers` is the form of a payload in a request to a node.
-/
import LedgerAbi.Abi.Signature
import LedgerAbi.Call.Config
import LedgerAbi.Codec.Encode

namespace LedgerAbi

/-- The data field of a payload. Without an entry a contract is created that declares no constructor;
an empty bytecode value stands for no bytes. -/
def callData (entry : Option Entry) (args : List Value) (bytecode : Value) : Except Error Bytes := do
  match entry with
  | none =>
    let code ← ((bytecode.truthy?).getD (.bytes [])).hexBytes
    if args.isEmpty then .ok code else .error (.arity (.undeclaredConstructor args.length))
  | some e =>
    if e.isConstructor then
      let code ← ((bytecode.truthy?).getD (.bytes [])).hexBytes
      let encoded ← encodeValues e.inputTypes args
      .ok (code ++ encoded)
    else
      let selector ← e.selector
      let encoded ← encodeValues e.inputTypes args
      .ok (selector ++ encoded)

/-- A request to the ledger. Without a target it creates a contract. -/
structure Payload where
  account : Bytes
  amount : Int
  target : Option Bytes
  gasLimit : Int
  fee : Int
  data : Bytes

namespace Payload

def isCreation (p : Payload) : Bool := p.target.isNone

/-- The target of a call: the address for a function, nothing for a constructor. -/
def buildTarget (entry : Option Entry) (address : Value) : Except Error (Option Bytes) := do
  match entry with
  | none => .ok none
  | some e =>
    if e.isConstructor then .ok none
    else if !address.isTruthy then
      let name ← e.shownName
      .error (.missingAddress .call name)
    else
      let a ← Address.ofValue address
      .ok (some a.bytes)

/-- The payload of a call. An empty account value stands for the default account of the settings. -/
def build (entry : Option Entry) (args : List Value) (config : Config) (account address bytecode : Value) :
    Except Error Payload := do
  let target ← buildTarget entry address
  let caller ← Address.ofValue ((account.truthy?).getD (.text config.defaultAccount))
  let data ← callData entry args bytecode
  .ok {
    account := caller.bytes, amount := config.amount, target, gasLimit := config.gasLimit,
    fee := config.fee, data }

/-- The members of a request: bytes as capital digits, and an empty address for a creation. -/
def toMembers (p : Payload) : Members := [
  ("Input", .dict [("Address", .text (Hex.ofBytes p.account)), ("Amount", .int p.amount)]),
  ("Address", .text (match p.target with
    | none => []
    | some target => Hex.ofBytes target)),
  ("GasLimit", .int p.gasLimit),
  ("Fee", .int p.fee),
  ("Data", .text (Hex.ofBytes p.data))]

end Payload

end LedgerAbi
