/-
Writing JSON texts.

The result is ASCII: other code points are escaped, past U+FFFF as a surrogate pair. A comma and a
colon are followed by a space, integers are written in full, and the doubles that are no numbers are
the words `NaN`, `Infinity` and `-Infinity`.
-/
import LedgerAbi.Value.Shown

namespace LedgerAbi.Json

/-- The escape of a code unit. -/
def unitEscape (n : Nat) : Text := "\\u" ++ Text.hexDigits 4 n

/-- A code point as it is written inside a string. -/
def printPoint (c : CodePoint) : Text :=
  let n := c.toNat
  if c = .char '"' ∨ c = .char '\\' then [.char '\\', c]
  else if 32 ≤ n ∧ n < 127 then [c]
  else if n = 8 then "\\b"
  else if n = 9 then "\\t"
  else if n = 10 then "\\n"
  else if n = 12 then "\\f"
  else if n = 13 then "\\r"
  else if n < 0x10000 then unitEscape n
  else
    let m := n - 0x10000
    unitEscape (0xD800 + m / 0x400) ++ unitEscape (0xDC00 + m % 0x400)

def printText (t : Text) : Text := .char '"' :: t.flatMap printPoint ++ [.char '"']

def printFloat : Binary64 → Text
  | .nan => "NaN"
  | .infinite negative => if negative then "-Infinity" else "Infinity"
  | x => x.shown

mutual

/-- The JSON form of a value; bytes are written as the text that shows them. -/
def print : Value → Text
  | .none => "null"
  | .bool b => if b then "true" else "false"
  | .int i => Text.ofInt i
  | .float x => printFloat x
  | .text t => printText t
  | .bytes b => printText (Bytes.quoted b)
  | .list items => "[" ++ Text.join ", " (printItems items) ++ "]"
  | .dict entries => "\x7b" ++ Text.join ", " (printEntries entries) ++ "\x7d"

def printItems : List Value → List Text
  | [] => []
  | v :: rest => print v :: printItems rest

def printEntries : List (Text × Value) → List Text
  | [] => []
  | (key, v) :: rest => (printText key ++ ": " ++ print v) :: printEntries rest

end

end LedgerAbi.Json
