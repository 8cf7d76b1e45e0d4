/-
Texts and bytes as they are shown inside messages.

* a text stands between single quotes, or between double quotes if it holds single ones only;
* the quote in use, the backslash and the control characters are escaped, and so is every code
  point that does not print.
-/
import LedgerAbi.Text.Printable
import LedgerAbi.Text.Utf8

namespace LedgerAbi

namespace Text

/-- The hexadecimal digit of a number below 16, in small letters. -/
def hexDigit (n : Nat) : CodePoint := .ofNat (if n < 10 then 48 + n else 87 + n)

/-- The last `count` hexadecimal digits of a number. -/
def hexDigits : Nat → Nat → Text
  | 0, _ => []
  | count + 1, n => hexDigits count (n / 16) ++ [hexDigit (n % 16)]

/-- The quote around a text with the given contents. -/
def quoteFor (single double : Bool) : CodePoint := if single && !double then .char '"' else .char '\''

/-- The escape of the code points that every quoted form escapes alike. -/
def commonEscape? (quote c : CodePoint) : Option Text :=
  if c = quote ∨ c = .char '\\' then some [.char '\\', c]
  else if c = .char '\n' then some "\\n"
  else if c = .char '\t' then some "\\t"
  else if c = .char '\r' then some "\\r"
  else none

/-- A code point as it is written between quotes. -/
def quotedPoint (quote c : CodePoint) : Text :=
  match commonEscape? quote c with
  | some escape => escape
  | none =>
    let n := c.toNat
    if c.isPrintable then [c]
    else if n < 0x100 then "\\x" ++ hexDigits 2 n
    else if n < 0x10000 then "\\u" ++ hexDigits 4 n
    else "\\U" ++ hexDigits 8 n

/-- A text between quotes. -/
def quoted (t : Text) : Text :=
  let quote := quoteFor (t.contains (.char '\'')) (t.contains (.char '"'))
  quote :: t.flatMap (quotedPoint quote) ++ [quote]

end Text

namespace Bytes

/-- A byte as it is written between quotes. -/
def quotedByte (quote : CodePoint) (b : UInt8) : Text :=
  let c := CodePoint.ofNat b.toNat
  match Text.commonEscape? quote c with
  | some escape => escape
  | none => if 32 ≤ b.toNat ∧ b.toNat < 127 then [c] else "\\x" ++ Text.hexDigits 2 b.toNat

/-- Bytes between quotes, after the letter `b`. -/
def quoted (bytes : Bytes) : Text :=
  let quote := Text.quoteFor (bytes.contains 39) (bytes.contains 34)
  .char 'b' :: quote :: bytes.flatMap (quotedByte quote) ++ [quote]

end Bytes

end LedgerAbi
