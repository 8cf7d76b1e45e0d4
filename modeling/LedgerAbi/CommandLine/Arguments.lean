/-
Taking a command line apart.

Options may stand anywhere among the arguments. The value of an option follows it, as the next argument
or after an equals sign, and may begin with a dash itself. A lone dash is an argument, and two dashes
end the options.

* `Scan.arguments` separates options from arguments;
* `Command.parse` reads a whole command line.
-/
import LedgerAbi.Text.Numeral

namespace LedgerAbi.CommandLine

/-- What an option does. -/
inductive OptionShape where
  /-- The option takes a value. -/
  | takesValue
  /-- The option stands for a value. -/
  | standsFor (value : Text)

/-- The options of a command: each name with the setting it belongs to and its shape. -/
abbrev Options := List (Text × Text × OptionShape)

/-- A command line with its options taken out: the settings made, in order, and the arguments. -/
structure Scan where
  settings : List (Text × Text)
  arguments : List Text

namespace Scan

/-- True if an argument is an option. -/
def isOption (t : Text) : Bool := t.length > 1 && t.head? == some (.char '-')

def addSetting (name value : Text) (s : Scan) : Scan :=
  { s with settings := (name, value) :: s.settings }

def addArgument (t : Text) (s : Scan) : Scan := { s with arguments := t :: s.arguments }

/-- Separates options from arguments; fails on an unknown option, on one that lacks its value and on
one that has a value without taking one. -/
def arguments? (options : Options) : List Text → Option Scan
  | [] => some ⟨[], []⟩
  | t :: rest =>
    if t = "--" then some ⟨[], rest⟩
    else if isOption t then
      let (name, attached) := t.cut (.char '=')
      match options.lookup name, attached with
      | some (setting, .standsFor value), none =>
        (arguments? options rest).map (addSetting setting value)
      | some (setting, .takesValue), some value =>
        (arguments? options rest).map (addSetting setting value)
      | some (setting, .takesValue), none =>
        match rest with
        | [] => none
        | value :: rest => (arguments? options rest).map (addSetting setting value)
      | _, _ => none
    else (arguments? options rest).map (addArgument t)

/-- All values of a setting, in order. -/
def values (s : Scan) (setting : Text) : List Text :=
  (s.settings.filter fun (name, _) => name == setting).map Prod.snd

/-- The last value of a setting. -/
def last? (s : Scan) (setting : Text) : Option Text := (s.values setting).getLast?

end Scan

/-- How a call from the command line is put to the ledger. -/
inductive Mode where
  | auto
  | simulate
  | execute
deriving DecidableEq, Inhabited

namespace Mode

def ofName? (t : Text) : Option Mode :=
  if t = "auto" then some auto
  else if t = "simulate" then some simulate
  else if t = "execute" then some execute
  else none

/-- Whether the caller asks for a simulation. -/
def simulate? : Mode → Option Bool
  | auto => none
  | simulate => some true
  | execute => some false

end Mode

/-- A command with its arguments. Each command reads an ABI document from a file. -/
inductive Command where
  | signatures (file : Text)
  | encode (file function : Text) (args : List Text)
  | decodeOutput (objectReturn : Bool) (file function data : Text)
  | decodeEvent (file event : Text) (topics : List Text) (data address : Text)
  | call (node account : Option Text) (gasLimit fee : Option Int) (objectReturn : Bool) (mode : Mode)
      (file address function : Text) (args : List Text)
  | help

namespace Command

/-- The name of the file that a command reads. -/
def file? : Command → Option Text
  | signatures file => some file
  | encode file _ _ => some file
  | decodeOutput _ file _ _ => some file
  | decodeEvent file _ _ _ _ => some file
  | call _ _ _ _ _ _ file _ _ _ => some file
  | help => none

def helpOptions : Options := [("--help", "help", .standsFor "yes")]

def objectOptions : Options :=
  [("--object", "object", .standsFor "yes"), ("--list", "object", .standsFor "no")]

def eventOptions : Options :=
  [("--topic", "topic", .takesValue), ("--data", "data", .takesValue),
    ("--address", "address", .takesValue)]

def callOptions : Options :=
  [("--json-rpc", "node", .takesValue), ("-rpc", "node", .takesValue),
    ("--account", "account", .takesValue), ("--gas-limit", "gas", .takesValue),
    ("--fee", "fee", .takesValue), ("--mode", "mode", .takesValue)]

/-- True if named outputs are asked for. -/
def objectReturn (s : Scan) : Bool := s.last? "object" == some (Text.ofString "yes")

/-- The integer of a setting; fails if it is set to something else. -/
def integer? (s : Scan) (setting : Text) : Option (Option Int) :=
  match s.last? setting with
  | none => some none
  | some t => t.decimal?.map some

/-- The address that decoded logs have unless another is given. -/
def standardAddress : Text := List.replicate 40 (.char '0')

def parseCall (s : Scan) : Option Command := do
  let gasLimit ← integer? s "gas"
  let fee ← integer? s "fee"
  let mode ← Mode.ofName? ((s.last? "mode").getD "auto")
  match s.arguments with
  | file :: address :: function :: args =>
    some (call (s.last? "node") (s.last? "account") gasLimit fee (objectReturn s) mode file address
      function args)
  | _ => none

/-- Reads the arguments of the command with a name. -/
def parseNamed (name : Text) (args : List Text) : Option Command :=
  let scan (options : Options) (build : Scan → Option Command) : Option Command := do
    let s ← Scan.arguments? (helpOptions ++ options) args
    if (s.last? "help").isSome then some help else build s
  if name = "signatures" then scan [] fun s => match s.arguments with
    | [file] => some (signatures file)
    | _ => none
  else if name = "encode" then scan [] fun s => match s.arguments with
    | file :: function :: args => some (encode file function args)
    | _ => none
  else if name = "decode-output" then scan objectOptions fun s => match s.arguments with
    | [file, function, data] => some (decodeOutput (objectReturn s) file function data)
    | _ => none
  else if name = "decode-event" then scan eventOptions fun s => match s.arguments with
    | [file, event] => some (decodeEvent file event (s.values "topic") ((s.last? "data").getD [])
        ((s.last? "address").getD standardAddress))
    | _ => none
  else if name = "call" then scan (callOptions ++ objectOptions) parseCall
  else none

/-- Reads a command line. -/
def parse : List Text → Option Command
  | [] => none
  | name :: args =>
    if name = "--help" then some help
    else if name = "--" then match args with
      | name :: args => parseNamed name args
      | [] => none
    else parseNamed name args

end Command

end LedgerAbi.CommandLine
