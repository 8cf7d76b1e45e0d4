/-
Integers written as text.

A numeral is a sign, digits and nothing else; blanks around it are ignored, and a single underscore
may stand between two digits. Decimal digits of every script count, so that U+0663 is a three.

* `Text.decimal?` reads base 10 and refuses more than `digitLimit` digits;
* `Text.hexadecimal?` reads `0x` followed by base 16 digits of any number, without a sign;
* `Text.integer?` takes the base from the `0x` mark;
* `Text.wholeNumber?` reads a number in ASCII digits, which may begin with zeros and end in decimal
  places that are zeros.
-/
import LedgerAbi.Text.Basic

namespace LedgerAbi

/-- The zeros of the decimal digits of all scripts; each is followed by the digits 1 to 9. -/
def decimalZeros : List Nat := [
    0x30, 0x660, 0x6F0, 0x7C0, 0x966, 0x9E6, 0xA66, 0xAE6, 0xB66, 0xBE6, 0xC66, 0xCE6, 0xD66,
    0xDE6, 0xE50, 0xED0, 0xF20, 0x1040, 0x1090, 0x17E0, 0x1810, 0x1946, 0x19D0, 0x1A80, 0x1A90,
    0x1B50, 0x1BB0, 0x1C40, 0x1C50, 0xA620, 0xA8D0, 0xA900, 0xA9D0, 0xA9F0, 0xAA50, 0xABF0,
    0xFF10, 0x104A0, 0x10D30, 0x11066, 0x110F0, 0x11136, 0x111D0, 0x112F0, 0x11450, 0x114D0,
    0x11650, 0x116C0, 0x11730, 0x118E0, 0x11950, 0x11C50, 0x11D50, 0x11DA0, 0x16A60, 0x16AC0,
    0x16B50, 0x1D7CE, 0x1D7D8, 0x1D7E2, 0x1D7EC, 0x1D7F6, 0x1E140, 0x1E2F0, 0x1E950, 0x1FBF0]

/-- The most decimal digits that an integer is written with or read from. -/
def digitLimit : Nat := 4300

/-- True if an integer has too many decimal digits to be written out. -/
def exceedsDigitLimit (i : Int) : Bool := 10 ^ digitLimit ≤ i.natAbs

/-- Integers of a word of 32 bytes can be written out. -/
theorem exceedsDigitLimit_eq_false {i : Int} (h : i.natAbs < 2 ^ 256) : exceedsDigitLimit i = false := by
  have hbase : 2 ^ 256 ≤ 10 ^ 256 := Nat.pow_le_pow_left (by decide) 256
  have hexponent : 10 ^ 256 ≤ 10 ^ digitLimit := Nat.pow_le_pow_right (by decide) (by decide)
  rw [exceedsDigitLimit, decide_eq_false_iff_not]
  exact Nat.not_le.mpr (Nat.lt_of_lt_of_le h (Nat.le_trans hbase hexponent))

namespace CodePoint

/-- The value of a decimal digit of any script. -/
def decimalValue? (c : CodePoint) : Option Nat :=
  let n := c.toNat
  (decimalZeros.find? fun z => z ≤ n && n < z + 10).map fun z => n - z

/-- The value of an ASCII digit. -/
def asciiDecimalValue? (c : CodePoint) : Option Nat :=
  if c.isAsciiDigit then some (c.toNat - 48) else none

/-- The value of a base 16 digit: a decimal digit of any script, or an ASCII letter. -/
def base16Value? (c : CodePoint) : Option Nat := c.decimalValue? <|> c.hexValue?

/-- The blanks that may surround a numeral. -/
def isBlank (c : CodePoint) : Bool :=
  let n := c.toNat
  c.isAsciiSpace || n == 0x85 || n == 0xA0 || n == 0x1680 || (0x2000 ≤ n && n ≤ 0x200A)
    || n == 0x2028 || n == 0x2029 || n == 0x202F || n == 0x205F || n == 0x3000

end CodePoint

namespace Text

/-- Value and number of the digits of a text in which single underscores may separate digits.
`afterDigit` tells whether the code point before the text was a digit. -/
def digitsFrom? (digit? : CodePoint → Option Nat) (base value count : Nat) (afterDigit : Bool) :
    Text → Option (Nat × Nat)
  | [] => if afterDigit then some (value, count) else none
  | c :: rest =>
    if c = '_' then
      if afterDigit then digitsFrom? digit? base value count false rest else none
    else match digit? c with
      | some d => digitsFrom? digit? base (value * base + d) (count + 1) true rest
      | none => none

/-- The sign of a numeral, as whether it is negative, and what follows it. -/
def sign : Text → Bool × Text
  | [] => (false, [])
  | c :: rest => if c = '-' then (true, rest) else if c = '+' then (false, rest) else (false, c :: rest)

def signed (negative : Bool) (n : Nat) : Int := if negative then - Int.ofNat n else Int.ofNat n

/-- The integer that a decimal numeral stands for. -/
def decimal? (t : Text) : Option Int :=
  let (negative, digits) := sign (t.trim CodePoint.isBlank)
  match digitsFrom? CodePoint.decimalValue? 10 0 0 false digits with
  | some (value, count) => if count ≤ digitLimit then some (signed negative value) else none
  | none => none

/-- True if the text starts with `0x` or `0X`. -/
def hasHexMark (t : Text) : Bool := t.startsWith "0x" || t.startsWith "0X"

/-- The integer that a numeral with the `0x` mark stands for; one underscore may follow the mark. -/
def hexadecimal? (t : Text) : Option Int :=
  let digits := (t.trim CodePoint.isBlank).drop 2
  let digits := match digits with
    | c :: rest => if c = '_' then rest else c :: rest
    | [] => []
  (digitsFrom? CodePoint.base16Value? 16 0 0 false digits).map fun (value, _) => Int.ofNat value

/-- True for what a number without zeros in front begins with: a minus sign or a digit but zero. -/
def beginsNumber (c : CodePoint) : Bool := c = '-' || (c.isAsciiDigit && c != '0')

/-- What follows leading zeros of a number, the last of which has been read. Underscores count as zeros
here. One of them stays where a point follows, or nothing. -/
def afterZeros? (last : CodePoint) : Text → Option Text
  | [] => some [last]
  | c :: rest =>
    if c = '0' ∨ c = '_' then afterZeros? c rest
    else if beginsNumber c then some (c :: rest)
    else if c = '.' then some (last :: c :: rest)
    else none

/-- A number without its leading zeros, which may stand before a minus sign. -/
def withoutLeadingZeros? : Text → Option Text
  | [] => none
  | c :: rest =>
    if c = '0' then afterZeros? c rest else if beginsNumber c then some (c :: rest) else none

/-- A number without decimal places that are all zeros. A point that ends the text has no places. -/
def withoutZeroPlaces (t : Text) : Text :=
  match t.cut (.char '.') with
  | (whole, some places) => if !places.isEmpty && places.all (· == .char '0') then whole else t
  | (_, none) => t

/-- The integer that an ASCII number spells whose decimal places, if it has any, are all zeros. Its one
sign stands in front; a minus sign may also stand behind leading zeros, where an underscore may follow
it, and then what follows has no leading zeros of its own. -/
def wholeNumber? (t : Text) : Option Int := do
  let (negative, number) := sign (t.trim CodePoint.isBlank)
  let number ← if number.head? = some (.char '-') then none else withoutLeadingZeros? number
  let (late, digits) := sign (withoutZeroPlaces number)
  let (value, count) ← digitsFrom? CodePoint.asciiDecimalValue? 10 0 0 late digits
  if (negative && late) || count == 0 || count > digitLimit then none
  else if count > 1 ∧ value < 10 ^ (count - 1) then none
  else some (signed (negative || late) value)

/-- The integer that a text spells, in base 16 if it has the `0x` mark and in base 10 otherwise. -/
def integer? (t : Text) : Option Int := if t.hasHexMark then t.hexadecimal? else t.decimal?

end Text

end LedgerAbi
