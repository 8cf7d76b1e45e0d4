/-
What the commands do.

A command reads its ABI document, works on a binding of it, and ends with an outcome: an exit code, the
text for standard output, what is laid out for the terminal, and the failure if there was one.

* `Command.run` carries out a command line against a reader of files and a node;
* `renderResult` and `renderEvent` are the JSON forms of results and events.
-/
import LedgerAbi.Call.Invocation
import LedgerAbi.CommandLine.Arguments
import LedgerAbi.Json.Printer
import LedgerAbi.Rpc.Client
import LedgerAbi.Text.Wrap

namespace LedgerAbi.CommandLine

/-- Something laid out for the terminal. -/
inductive Printed where
  | line (t : Text)
  | table (title : Text) (columns : List Text) (rows : List (List Text))

/-- Why a command failed. -/
inductive Failure where
  /-- The command line cannot be carried out as it stands; the words are given where they are the
  command's own, with the argument that they are about. -/
  | usage (message : Option (Text × Option Text))
  /-- A failure of the library that is reported to the user. -/
  | reported (e : Error)
  /-- Any other failure. -/
  | escaped (e : Error)

/-- What became of a command. -/
structure Outcome where
  stdout : Text
  printed : List Printed
  sent : List Rpc.NetworkAction
  failure : Option Failure

namespace Outcome

/-- The outcome of a command that has done nothing. -/
def empty : Outcome := ⟨[], [], [], none⟩

def failed (f : Failure) : Outcome := { empty with failure := some f }

/-- The outcome of a command that writes a line. -/
def written (t : Text) : Outcome := { empty with stdout := t ++ "\n" }

/-- Zero for success, two for a command line that cannot be carried out, one for other failures. -/
def exitCode (o : Outcome) : Nat :=
  match o.failure with
  | none => 0
  | some (.usage _) => 2
  | some _ => 1

end Outcome

/-- The failure of a command for a failure of the library. -/
def Failure.ofError (e : Error) : Failure :=
  match e with
  | .fault _ => .escaped e
  | .subscriptionClosed _ => .escaped e
  | _ => .reported e

/-- A key as the name of a member of a JSON object. -/
def keyText : Value → Text
  | .text t => t
  | v => Json.print v

/-- Values under their keys as a JSON object. -/
def renderNamed (named : List (Value × Value)) : Value :=
  .dict (named.map fun (key, v) => (keyText key, v))

/-- The JSON form of a result. -/
def renderResult (r : CallResult) : Text :=
  match r with
  | .value v => Json.print v
  | .object values raw => Json.print (.dict [("values", renderNamed values), ("raw", .list raw)])

/-- The JSON form of an event. -/
def renderEvent (e : DecodedEvent) : Text :=
  Json.print (.dict [("name", .text e.name), ("event", .text e.event), ("address", .text e.address),
    ("args", renderNamed e.args)])

/-- The value of an argument: the items of a JSON array, and the text itself for everything else. -/
def argumentValue (nesting : Nat) (t : Text) : Except Error Value :=
  if t.head? = some (.char '[') then
    match Json.parse nesting t with
    | .ok v => .ok v
    | .error .malformed => .ok (.text t)
    | .error .overlongInteger => .error (.fault .overlongInteger)
    | .error .tooDeep => .error (.fault .tooDeep)
  else .ok (.text t)

/-- The ABI in a document: a bare list, or the member of that name of a compiler's output. -/
def abiOfDocument (nesting : Nat) (name contents : Text) : Except Failure Value :=
  match Json.parse nesting contents with
  | .error .malformed =>
    .error (.usage (some (name ++ " is not valid JSON", some "ABI_JSON")))
  | .error .overlongInteger => .error (.escaped (.fault .overlongInteger))
  | .error .tooDeep => .error (.escaped (.fault .tooDeep))
  | .ok (.dict members) => .ok (Members.getD members "abi" (.list []))
  | .ok v => .ok v

/-- A binding that no transport belongs to. -/
def offlineBinding (abi : Value) (objectReturn : Bool) : Except Error Binding :=
  Binding.ofValue abi .standard .none .none .none objectReturn

/-- The result of a step of a command, with failures of the library made failures of the command. -/
def lift {α : Type} (r : Except Error α) : Except Failure α := r.mapError Failure.ofError

/-- The table of signatures. -/
def signatureTable (rows : List (EntryKind × Text × Text)) : Printed :=
  .table "ABI Signatures" ["Type", "Signature", "Selector / Topic"]
    (rows.map fun (kind, signature, selector) => [kind.name, signature, selector])

/-- The width of a terminal; one that does not know its width counts as 80 columns wide. -/
def terminalWidth (columns : Int) : Int := if 0 < columns then columns else 80

/-- The types of the arguments of a declared constructor, in lines for a terminal. -/
def constructorLines (columns : Int) (b : Binding) : List Printed :=
  match b.constructor with
  | none => []
  | some e =>
    .line "Constructor Arguments:" ::
      ((Text.wrap (terminalWidth columns - 4) (e.inputTypes.map AbiType.canonical)).map fun t =>
        .line ("    " ++ t))

/-- The settings of a call with some of them given. -/
def callConfig (gasLimit fee : Option Int) : Config :=
  { Config.standard with
    gasLimit := gasLimit.getD Config.standard.gasLimit
    fee := fee.getD Config.standard.fee }

/-- The text as a value, empty without one. -/
def optionalText : Option Text → Value
  | some t => .text t
  | none => .none

/-- Makes a call through a client whose post turns out in a given way. -/
def runCall (client : Rpc.Client) (post : Rpc.PostOutcome) (i : Invocation) :
    List Rpc.NetworkAction × Except Error CallResult :=
  match i.request with
  | .error e => ([], .error e)
  | .ok (kind, payload) =>
    let (_, action) := client.post kind payload
    ([action], i.outcome (client.outcome post))

namespace Command

/-- The outcome of an action, or the failure that kept it from being taken. -/
def finish : Except Failure Outcome → Outcome
  | .ok o => o
  | .error f => .failed f

/-- Carries out a command whose file has the given name and contents. What it reads may be nested up to
the limit. -/
def perform (nesting : Nat) (columns : Int) (post : Rpc.PostOutcome) (name contents : Text)
    (c : Command) : Outcome :=
  match c with
  | signatures _ => finish do
    let abi ← abiOfDocument nesting name contents
    let b ← lift (offlineBinding abi false)
    let rows ← lift b.signatures
    .ok { Outcome.empty with printed := signatureTable rows :: constructorLines columns b }
  | encode _ function args => finish do
    let abi ← abiOfDocument nesting name contents
    let b ← lift (offlineBinding abi false)
    let values ← lift (args.mapM (argumentValue nesting))
    let encoded ← lift (b.encode function values)
    .ok (.written encoded)
  | decodeOutput objectReturn _ function data => finish do
    match Hex.read? data with
    | none => .error (.usage (some (data.quoted ++ " is not valid hex", some "DATA")))
    | some bytes =>
      let abi ← abiOfDocument nesting name contents
      let b ← lift (offlineBinding abi objectReturn)
      let f ← lift (b.function function)
      let result ← lift ((Callee.function f).processResult objectReturn ⟨bytes, none, none⟩)
      .ok (.written (renderResult result))
  | decodeEvent _ event topics data address => finish do
    let abi ← abiOfDocument nesting name contents
    let b ← lift (offlineBinding abi false)
    let event ← lift (b.event event)
    let decoded ← lift (decodeLog event.entry
      ⟨.text address, .list (topics.map Value.text), .text data⟩)
    .ok (.written (renderEvent decoded))
  | call none _ _ _ _ _ _ _ _ _ =>
    .failed (.usage (some
      ("--json-rpc must be provided, or the JSON_RPC environment variable set", none)))
  | call (some node) account gasLimit fee objectReturn mode _ address function args =>
    let prepared : Except Failure (BoundFunction × Invocation) := do
      let abi ← abiOfDocument nesting name contents
      let b ← lift (Binding.ofValue abi (callConfig gasLimit fee) (.text address) .none
        (optionalText account) objectReturn)
      let f ← lift (b.function function)
      let values ← lift (args.mapM (argumentValue nesting))
      .ok (f, ⟨b, .function f, values, mode.simulate?, .none⟩)
    match prepared with
    | .error f => .failed f
    | .ok (f, i) =>
      let client := { Rpc.Client.ofArguments node .none .none (.int 120) with nesting := nesting }
      let (sent, outcome) := runCall client post i
      match outcome with
      | .error e => { Outcome.failed (Failure.ofError e) with sent := sent }
      | .ok result => {
          stdout := renderResult result ++ "\n"
          printed := [.line ("[green]" ++ f.signature ++ " returned:")]
          sent := sent
          failure := none }
  | help => .empty

/-- Carries out a command line. `read` gives the contents of a file and the name to call it by. -/
def run (nesting : Nat) (columns : Int) (post : Rpc.PostOutcome)
    (read : Text → Option (Text × Text)) (args : List Text) : Outcome :=
  match parse args with
  | none => .failed (.usage none)
  | some c =>
    match c.file? with
    | none => .empty
    | some file => match read file with
      | none => .failed (.usage none)
      | some (name, contents) => c.perform nesting columns post name contents

end Command

end LedgerAbi.CommandLine
