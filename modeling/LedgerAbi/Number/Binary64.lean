/-
Double precision numbers: 53 significant bits and exponents down to -1074.

* `Binary64.ofDecimal` rounds a decimal number to the nearest double, ties to the even significand;
* `Binary64.shortest` finds the fewest decimal digits that read back as the same double, and among
  those the nearest to it;
* `Binary64.truncated?` is the integer part;
* `Binary64.less`, `isAbove` and `isBelow` compare with a double or an integer, without rounding.
-/
import LedgerAbi.Text.Basic

namespace LedgerAbi

/-- A double: `significand * 2 ^ exponent` with a sign, an infinity, or no number. Among the ways
to write a finite double, values are built with the largest significand below `2 ^ 53` that the
exponent range allows. -/
inductive Binary64 where
  | finite (negative : Bool) (significand : Nat) (exponent : Int)
  | infinite (negative : Bool)
  | nan
deriving DecidableEq, Inhabited

/-- How many decimal digits a natural number has; zero has none. -/
def decimalLength (n : Nat) : Nat := if n = 0 then 0 else (toString n).length

/-- The natural number nearest to `num / den`, and of two the even one. -/
def roundQuotient (num den : Nat) : Nat :=
  let q := num / den
  let r := num % den
  if 2 * r > den || (2 * r == den && q % 2 == 1) then q + 1 else q

/-- The quotient `num / den * base ^ power` as a numerator and a denominator. -/
def scaled (num den base : Nat) (power : Int) : Nat × Nat :=
  if 0 ≤ power then (num * base ^ power.toNat, den) else (num, den * base ^ (-power).toNat)

namespace Binary64

def zero (negative : Bool) : Binary64 := finite negative 0 (-1074)

/-- The double nearest to the positive quotient `num / den`. -/
def ofQuotient (negative : Bool) (num den : Nat) : Binary64 :=
  let guess : Int := (Nat.log2 num : Int) - (Nat.log2 den : Int) - 53
  let fits (e : Int) : Bool := let (a, b) := scaled num den 2 (-e); a / b < 2 ^ 53
  let least := if fits guess then guess else guess + 1
  let exponent := max least (-1074)
  let (a, b) := scaled num den 2 (-exponent)
  let significand := roundQuotient a b
  let (significand, exponent) :=
    if significand = 2 ^ 53 then (2 ^ 52, exponent + 1) else (significand, exponent)
  if exponent > 971 then infinite negative else finite negative significand exponent

/-- The double nearest to `digits * 10 ^ power`. Exponents far out of range are settled without
computing the power. -/
def ofDecimal (negative : Bool) (digits : Nat) (power : Int) : Binary64 :=
  let magnitude := (decimalLength digits : Int) + power
  if digits = 0 then zero negative
  else if magnitude > 310 then infinite negative
  else if magnitude < -330 then zero negative
  else
    let (num, den) := scaled digits 1 10 power
    ofQuotient negative num den

def isZero : Binary64 → Bool
  | finite _ s _ => s == 0
  | _ => false

/-- The integer equal to a double, if there is one. -/
def toInt? : Binary64 → Option Int
  | finite negative s e =>
    let (num, den) := scaled s 1 2 e
    if num % den = 0 then some (if negative then - Int.ofNat (num / den) else Int.ofNat (num / den))
    else none
  | _ => none

/-- A finite double without its fraction. -/
def truncated? : Binary64 → Option Int
  | finite negative s e =>
    let (num, den) := scaled s 1 2 e
    some (if negative then - Int.ofNat (num / den) else Int.ofNat (num / den))
  | _ => none

/-- True if one double lies below the other on the real line. -/
def less : Binary64 → Binary64 → Bool
  | nan, _ => false
  | _, nan => false
  | infinite a, infinite b => a && !b
  | infinite a, finite .. => a
  | finite .., infinite b => !b
  | finite n s e, finite m t f =>
    let least := min e f
    let value (negative : Bool) (s : Nat) (e : Int) : Int :=
      let v := Int.ofNat (s * 2 ^ (e - least).toNat)
      if negative then -v else v
    value n s e < value m t f

/-- An integer and a finite double, both multiplied by the same power of two that makes them integers. -/
def scaledPair (i : Int) (negative : Bool) (s : Nat) (e : Int) : Int × Int :=
  let v := Int.ofNat (s * 2 ^ e.toNat)
  (i * 2 ^ (-e).toNat, if negative then -v else v)

/-- True if a double lies above an integer on the real line. -/
def isAbove (x : Binary64) (i : Int) : Bool :=
  match x with
  | nan => false
  | infinite negative => !negative
  | finite negative s e =>
    let (whole, v) := scaledPair i negative s e
    whole < v

/-- True if a double lies below an integer on the real line. -/
def isBelow (x : Binary64) (i : Int) : Bool :=
  match x with
  | nan => false
  | infinite negative => negative
  | finite negative s e =>
    let (whole, v) := scaledPair i negative s e
    v < whole

/-- True if two doubles are the same point of the real line. -/
def equal : Binary64 → Binary64 → Bool
  | nan, _ => false
  | _, nan => false
  | infinite a, infinite b => a == b
  | finite n s e, finite m t f => s == t && (s == 0 || (n == m && e == f))
  | _, _ => false

/-- The digits of a positive double and the position of its decimal point: the value is
`0.digits * 10 ^ point`. -/
def shortest (s : Nat) (e : Int) : Nat × Int :=
  let (num, den) := scaled s 1 2 e
  let point : Int := (decimalLength (num * 10 ^ 400 / den) : Int) - 400
  let x := finite false s e
  let candidate? (count : Nat) : Option (Nat × Int) :=
    let power := point - count
    let (a, b) := scaled num den 10 (-power)
    let low := a / b
    let reads (digits : Nat) : Bool := ofDecimal false digits power == x
    let near := roundQuotient a b
    let far := if near = low then low + 1 else low
    if reads near then some (near, power) else if reads far then some (far, power) else none
  match (List.range 17).findSome? fun k => candidate? (k + 1) with
  | some (digits, power) => (digits, (decimalLength digits : Int) + power)
  | none => (0, 0)

/-- Zeros at the end of a digit sequence say nothing. -/
def withoutTrailingZeros (digits : Text) : Text :=
  (digits.reverse.dropWhile (· == CodePoint.char '0')).reverse

/-- Digits with the decimal point after the first `point` of them, filled up with zeros; at least
one digit stands on either side. -/
def positional (digits : Text) (point : Int) : Text :=
  let zeros (count : Nat) : Text := List.replicate count (.char '0')
  if point ≤ 0 then "0." ++ zeros (-point).toNat ++ digits
  else
    let whole := digits.take point.toNat
    let fraction := digits.drop point.toNat
    whole ++ zeros (point.toNat - whole.length) ++ "."
      ++ if fraction.isEmpty then zeros 1 else fraction

/-- Digits with the point after the first and a signed exponent of at least two digits. -/
def scientific (digits : Text) (point : Int) : Text :=
  let power := point - 1
  let magnitude := Text.ofNat power.natAbs
  digits.take 1 ++ (if digits.length > 1 then "." ++ digits.drop 1 else [])
    ++ (if power < 0 then "e-" else "e+") ++ (if magnitude.length < 2 then "0" else "") ++ magnitude

/-- The shortest text that reads back: positional for exponents from -4 to 15, scientific beyond. -/
def shown : Binary64 → Text
  | nan => "nan"
  | infinite negative => if negative then "-inf" else "inf"
  | finite negative s e =>
    let mark : Text := if negative then "-" else ""
    if s = 0 then mark ++ "0.0"
    else
      let (number, point) := shortest s e
      let digits := withoutTrailingZeros (Text.ofNat number)
      mark ++ if -4 < point ∧ point ≤ 16 then positional digits point else scientific digits point

end Binary64

end LedgerAbi
