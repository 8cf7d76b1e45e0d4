/-
Decoding event logs.

A log has topics and data. Indexed parameters stand in the topics, one word each, and parameters of
hashed types leave only their digest there; all other parameters are encoded in the data. The first
topic of an event that is not anonymous is the topic of its signature.

* `LogRecord` is a log as it arrives, with any value in any field;
* `decodeLog` gives the arguments under their keys, in the order of the declaration.
-/
import LedgerAbi.Abi.Signature
import LedgerAbi.Call.Result

namespace LedgerAbi

/-- A log as a transport delivers it. -/
structure LogRecord where
  address : Value
  topics : Value
  data : Value

/-- A log in terms of its event. -/
structure DecodedEvent where
  name : Text
  event : Text
  address : Text
  args : List (Value × Value)

/-- How many hexadecimal digits a topic has. -/
def topicHexLength : Nat := 64

/-- The type that the topic of an indexed parameter is decoded as. -/
def topicType (t : AbiType) : AbiType := if t.isHashed then .bytes32 else t

namespace Entry

def indexedInputs (e : Entry) : List Parameter := e.inputs.filter Parameter.indexed

def dataInputs (e : Entry) : List Parameter := e.inputs.filter fun p => !p.indexed

end Entry

/-- Values dealt out to parameters in the order of declaration: the next of the topics to an indexed
parameter, the next of the data to any other. -/
def mergeArguments : List (Value × Parameter) → List Value → List Value → List (Value × Value)
  | [], _, _ => []
  | (key, p) :: rest, fromTopics, fromData =>
    if p.indexed then
      match fromTopics with
      | v :: fromTopics => (key, v) :: mergeArguments rest fromTopics fromData
      | [] => mergeArguments rest [] fromData
    else
      match fromData with
      | v :: fromData => (key, v) :: mergeArguments rest fromTopics fromData
      | [] => mergeArguments rest fromTopics []

/-- The topics that belong to indexed parameters. -/
def argumentTopics (e : Entry) (topics : List Text) : List Text :=
  if e.anonymous then topics else topics.drop 1

/-- Decodes a log of an event. -/
def decodeLog (e : Entry) (log : LogRecord) : Except Error DecodedEvent := do
  let data ← ((log.data.truthy?).getD (.bytes [])).wireHex
  let topics ← (← log.topics.items).mapM Value.wireHex
  let indexed := e.indexedInputs
  let arguments := argumentTopics e topics
  if arguments.length ≠ indexed.length then
    let name ← e.shownName
    .error (.decode (.topicCount name indexed.length arguments.length))
  else if arguments.any fun t => t.length ≠ topicHexLength then
    .error (.decode (.topicLength arguments))
  else
    let fromTopics ← decodeText (indexed.map fun p => topicType p.type) arguments.flatten
    let fromData ← decodeText (e.dataInputs.map Parameter.type) data
    let keys := parameterKeys e.inputs
    if !keys.all Value.isKey then .error (.fault .wrongKind)
    else
      let name ← e.fullName
      let address ← log.address.wireHex
      .ok ⟨displayName name, name, address, collect (mergeArguments (keys.zip e.inputs) fromTopics fromData)⟩

end LedgerAbi
