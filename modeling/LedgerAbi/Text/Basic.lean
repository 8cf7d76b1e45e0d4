/-
Texts as they travel between users, ABI files and ledger nodes.

A text is a list of code points. JSON escapes can name one half of a surrogate pair, so besides the
characters of Unicode there are 2048 lone surrogates, and a text that holds one has no UTF-8 form.

* `CodePoint`, `Text` and the coercion of string literals;
* the ASCII classes that hexadecimal digits, numerals and names are made of;
* searching, cutting and joining.
-/
namespace LedgerAbi

-- Powers and sums of numbers mean the core ones in every module, also where Mathlib has its own.
attribute [scoped instance (high)] instPowNat Zero.ofOfNat0
attribute [default_instance 20000] instPowNat

/-- A character, or one half of a surrogate pair that stands alone. -/
inductive CodePoint where
  | char (c : Char)
  | surrogate (n : Fin 2048)
deriving DecidableEq, Inhabited

namespace CodePoint

/-- The number of a code point; the surrogates fill the gap between the characters. -/
def toNat : CodePoint → Nat
  | char c => c.toNat
  | surrogate n => 0xD800 + n.val

/-- The code point with a number; numbers past the last one give the null character. -/
def ofNat (n : Nat) : CodePoint :=
  if h : 0xD800 ≤ n ∧ n < 0xE000 then surrogate ⟨n - 0xD800, by omega⟩ else char (Char.ofNat n)

def isSurrogate : CodePoint → Bool
  | char _ => false
  | surrogate _ => true

def isAscii (c : CodePoint) : Bool := c.toNat < 128

def isAsciiDigit (c : CodePoint) : Bool := 48 ≤ c.toNat && c.toNat ≤ 57

def isAsciiLetter (c : CodePoint) : Bool :=
  (65 ≤ c.toNat && c.toNat ≤ 90) || (97 ≤ c.toNat && c.toNat ≤ 122)

/-- Tab, line feed, vertical tab, form feed, carriage return and space. -/
def isAsciiSpace (c : CodePoint) : Bool := (9 ≤ c.toNat && c.toNat ≤ 13) || c.toNat == 32

/-- The value of an ASCII digit, or of a letter `a` to `f` of either case. -/
def hexValue? (c : CodePoint) : Option Nat :=
  let n := c.toNat
  if 48 ≤ n ∧ n ≤ 57 then some (n - 48)
  else if 65 ≤ n ∧ n ≤ 70 then some (n - 55)
  else if 97 ≤ n ∧ n ≤ 102 then some (n - 87)
  else none

/-- ASCII capitals become small letters; everything else stays. -/
def toAsciiLower (c : CodePoint) : CodePoint :=
  if 65 ≤ c.toNat ∧ c.toNat ≤ 90 then ofNat (c.toNat + 32) else c

instance : Coe Char CodePoint := ⟨char⟩

end CodePoint

/-- A sequence of code points. -/
abbrev Text := List CodePoint

namespace Text

def ofString (s : String) : Text := s.toList.map .char

instance : Coe String Text := ⟨ofString⟩

/-- The decimal digits of a natural number. -/
def ofNat (n : Nat) : Text := ofString (toString n)

/-- The decimal digits of an integer, after a minus sign if it is negative. -/
def ofInt : Int → Text
  | .ofNat n => ofNat n
  | .negSucc n => "-" ++ ofNat (n + 1)

/-- The characters of a text, unless it holds a lone surrogate. -/
def chars? : Text → Option (List Char)
  | [] => some []
  | .char c :: rest => (chars? rest).map (c :: ·)
  | .surrogate _ :: _ => none

/-- True if no code point is a lone surrogate. -/
def isScalar (t : Text) : Bool := t.all fun c => !c.isSurrogate

def toAsciiLower (t : Text) : Text := t.map CodePoint.toAsciiLower

def startsWith (t start : Text) : Bool := start.isPrefixOf t

/-- The texts one after the other, with a separator between neighbours. -/
def join (separator : Text) : List Text → Text
  | [] => []
  | [t] => t
  | t :: rest => t ++ separator ++ join separator rest

/-- The part before the first occurrence of a code point, and the part after it if there is one. -/
def cut (t : Text) (c : CodePoint) : Text × Option Text :=
  match t with
  | [] => ([], none)
  | d :: rest => if d = c then ([], some rest) else
    let (before, after) := cut rest c
    (d :: before, after)

/-- The part before the first occurrence of a code point, or the whole text without one. -/
def before (t : Text) (c : CodePoint) : Text := t.takeWhile (· != c)

/-- The part before the last occurrence of a code point, or the whole text without one. -/
def beforeLast (t : Text) (c : CodePoint) : Text :=
  if c ∈ t then ((t.reverse.dropWhile (· != c)).drop 1).reverse else t

/-- The first occurrence of a text replaced by another. -/
def replaceFirst (t old new : Text) : Text :=
  match t with
  | [] => if old.isEmpty then new else []
  | c :: rest =>
    if startsWith (c :: rest) old then new ++ (c :: rest).drop old.length
    else c :: replaceFirst rest old new

/-- Code points of a class removed from both ends. -/
def trim (t : Text) (blank : CodePoint → Bool) : Text :=
  ((t.dropWhile blank).reverse.dropWhile blank).reverse

end Text

end LedgerAbi
