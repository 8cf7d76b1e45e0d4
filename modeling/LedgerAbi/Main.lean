/-
The command line program.

It reads the ABI document from a file, or from standard input if the file is `-`, and has no network:
a call ends with the failure to connect.
-/
import LedgerAbi.CommandLine.Run

namespace LedgerAbi.CommandLine

/-- A text for the terminal, with a mark for what has no UTF-8 form. -/
def terminalText (t : Text) : String :=
  String.ofList (t.map fun c => match c with
    | .char c => c
    | .surrogate _ => '?')

/-- The lines of something laid out for the terminal. -/
def Printed.lines : Printed → List Text
  | line t => [t]
  | table title columns rows =>
    title :: Text.join "  " columns :: rows.map (Text.join "  ")

/-- The words for a failure. -/
def Failure.words : Failure → Text
  | usage none => "Usage: COMMAND [OPTIONS] ABI_JSON [ARGS]..."
  | usage (some (message, _)) => "Error: " ++ message
  | reported e => "Error: " ++ e.message?.getD []
  | escaped e => "Error: " ++ e.message?.getD "the request cannot be carried out"

/-- The contents of a file, and the name to call it by. -/
def readFile (file : String) : IO (Option (Text × Text)) := do
  if file == "-" then
    let contents ← (← IO.getStdin).readToEnd
    return some ("<stdin>", Text.ofString contents)
  try
    let contents ← IO.FS.readFile file
    return some (Text.ofString file, Text.ofString contents)
  catch _ => return none

/-- Carries out the command line of the program. -/
def program (args : List String) : IO UInt32 := do
  let args := args.map Text.ofString
  let found ← match Command.parse args with
    | some c => match c.file? with
      | some file => readFile (terminalText file)
      | none => pure none
    | none => pure none
  let outcome := Command.run Json.usualNesting 80 (.connectionError "no network") (fun _ => found) args
  for printed in outcome.printed do
    for line in printed.lines do
      IO.println (terminalText line)
  IO.print (terminalText outcome.stdout)
  match outcome.failure with
  | some f => IO.eprintln (terminalText f.words)
  | none => pure ()
  return outcome.exitCode.toUInt32

end LedgerAbi.CommandLine

/-- The entry point of the program. -/
def main (args : List String) : IO UInt32 := LedgerAbi.CommandLine.program args
