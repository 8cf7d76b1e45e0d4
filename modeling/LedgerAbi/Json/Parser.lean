/-
Reading JSON texts.

Beyond the standard grammar the words `NaN`, `Infinity` and `-Infinity` are numbers, and an escape may
name one half of a surrogate pair. An object keeps the order of its keys, and a repeated key has its
last value in its first place. Arrays and objects are followed down to a limit, which the caller sets.

* `Json.parse` reads a whole text;
* `Json.Failure` tells a text that is no JSON from an integer with too many digits and from brackets
  that are nested too deep.
-/
import LedgerAbi.Value.Basic

namespace LedgerAbi.Json

/-- Why a text could not be read. -/
inductive Failure where
  | malformed
  | overlongInteger
  | tooDeep
deriving DecidableEq, Inhabited

def isSpace (c : CodePoint) : Bool :=
  c == .char ' ' || c == .char '\t' || c == .char '\n' || c == .char '\r'

def skipSpace (t : Text) : Text := t.dropWhile isSpace

/-- The number of four hexadecimal digits. -/
def hex4? (a b c d : CodePoint) : Option Nat := do
  some ((((← a.hexValue?) * 16 + (← b.hexValue?)) * 16 + (← c.hexValue?)) * 16 + (← d.hexValue?))

def isHighSurrogate (n : Nat) : Bool := 0xD800 ≤ n && n < 0xDC00

def isLowSurrogate (n : Nat) : Bool := 0xDC00 ≤ n && n < 0xE000

/-- The code point of a surrogate pair. -/
def joinSurrogates (high low : Nat) : CodePoint :=
  .ofNat (0x10000 + (high - 0xD800) * 0x400 + (low - 0xDC00))

/-- The code point that a one letter escape stands for. -/
def simpleEscape? (c : CodePoint) : Option CodePoint :=
  if c = .char '"' ∨ c = .char '\\' ∨ c = .char '/' then some c
  else if c = .char 'b' then some (.ofNat 8)
  else if c = .char 'f' then some (.ofNat 12)
  else if c = .char 'n' then some (.ofNat 10)
  else if c = .char 'r' then some (.ofNat 13)
  else if c = .char 't' then some (.ofNat 9)
  else none

/-- The low half of a surrogate pair, if its escape starts the text. -/
def lowHalf? : Text → Option Nat
  | back :: u :: a :: b :: c :: d :: _ =>
    if back = .char '\\' ∧ u = .char 'u' then (hex4? a b c d).filter isLowSurrogate else none
  | _ => none

/-- The contents of a string after its opening quote, and what follows the closing one. -/
def stringBody : Text → Option (Text × Text)
  | [] => none
  | c :: rest =>
    if c = .char '"' then some ([], rest)
    else if c.toNat < 32 then none
    else if c = .char '\\' then
      match rest with
      | [] => none
      | e :: rest =>
        if e = .char 'u' then
          match rest with
          | a :: b :: c :: d :: rest =>
            match hex4? a b c d with
            | none => none
            | some n =>
              match if isHighSurrogate n then lowHalf? rest else none with
              | none => (stringBody rest).map fun (t, rest) => (.ofNat n :: t, rest)
              | some low =>
                match rest with
                | _ :: _ :: _ :: _ :: _ :: _ :: rest =>
                  (stringBody rest).map fun (t, rest) => (joinSurrogates n low :: t, rest)
                | _ => none
          | _ => none
        else match simpleEscape? e with
          | some e => (stringBody rest).map fun (t, rest) => (e :: t, rest)
          | none => none
    else (stringBody rest).map fun (t, rest) => (c :: t, rest)

/-- The value of ASCII digits. -/
def digitsValue (digits : Text) : Nat := digits.foldl (fun n c => n * 10 + (c.toNat - 48)) 0

/-- The ASCII digits at the start of a text, and the rest. -/
def spanDigits (t : Text) : Text × Text := t.span CodePoint.isAsciiDigit

/-- The digits of a fraction and the rest; no digits if the text does not start with a fraction. -/
def fraction (t : Text) : Text × Text :=
  match t with
  | c :: rest =>
    let (digits, after) := spanDigits rest
    if c = .char '.' ∧ digits ≠ [] then (digits, after) else ([], t)
  | [] => ([], t)

/-- The exponent at the start of a text, if there is one, and the rest. -/
def exponent (t : Text) : Option Int × Text :=
  match t with
  | c :: rest =>
    let (negative, unsigned) := Text.sign rest
    let (digits, after) := spanDigits unsigned
    if (c = .char 'e' ∨ c = .char 'E') ∧ digits ≠ [] then
      (some (Text.signed negative (digitsValue digits)), after)
    else (none, t)
  | [] => (none, t)

/-- An unsigned number at the start of a text. A number without fraction and exponent is an integer. -/
def number (negative : Bool) (t : Text) : Except Failure (Value × Text) :=
  let (whole, rest) := spanDigits t
  let (whole, rest) := if whole.head? = some (.char '0') then (whole.take 1, whole.drop 1 ++ rest)
    else (whole, rest)
  if whole = [] then .error .malformed
  else
    let (places, afterFraction) := fraction rest
    let (power, after) := exponent afterFraction
    if places = [] ∧ power = none then
      if whole.length > digitLimit then .error .overlongInteger
      else .ok (.int (Text.signed negative (digitsValue whole)), after)
    else
      .ok (.float (Binary64.ofDecimal negative (digitsValue (whole ++ places))
        (power.getD 0 - places.length)), after)

/-- The values that are written as words. -/
def words : List (Text × Value) := [
  ("null", .none), ("true", .bool true), ("false", .bool false), ("NaN", .float .nan),
  ("Infinity", .float (.infinite false)), ("-Infinity", .float (.infinite true))]

/-- A word at the start of a text. -/
def word? (t : Text) : Option (Value × Text) :=
  (words.find? fun (w, _) => t.startsWith w).map fun (w, v) => (v, t.drop w.length)

/-- How deep arrays and objects may be nested where nothing else is asked for. -/
def usualNesting : Nat := 970

mutual

/-- The value at the start of a text, and what follows it. Each step uses up one unit of fuel, and no
text needs more than two units for a code point. Each bracket uses up one level of nesting, before
anything behind it is looked at. -/
def value : (nesting fuel : Nat) → Text → Except Failure (Value × Text)
  | _, 0, _ => .error .malformed
  | nesting, fuel + 1, t =>
    match t with
    | [] => .error .malformed
    | c :: rest =>
      if c = .char '"' then match stringBody rest with
        | some (s, after) => .ok (.text s, after)
        | none => .error .malformed
      else if c = .char '[' then
        match nesting with
        | 0 => .error .tooDeep
        | nesting + 1 =>
          match skipSpace rest with
          | [] => .error .malformed
          | d :: after =>
            if d = .char ']' then .ok (.list [], after) else do
              let (vs, after) ← items nesting fuel (d :: after)
              .ok (.list vs, after)
      else if c = .char '\x7b' then
        match nesting with
        | 0 => .error .tooDeep
        | nesting + 1 =>
          match skipSpace rest with
          | [] => .error .malformed
          | d :: after =>
            if d = .char '\x7d' then .ok (.dict [], after) else do
              let (es, after) ← entries nesting fuel [] (d :: after)
              .ok (.dict es, after)
      else match word? t with
        | some found => .ok found
        | none => if c = .char '-' then number true rest else number false t

/-- The items of an array up to its closing bracket. -/
def items : (nesting fuel : Nat) → Text → Except Failure (List Value × Text)
  | _, 0, _ => .error .malformed
  | nesting, fuel + 1, t => do
    let (v, after) ← value nesting fuel t
    match skipSpace after with
    | [] => .error .malformed
    | d :: after =>
      if d = .char ']' then .ok ([v], after)
      else if d = .char ',' then do
        let (vs, after) ← items nesting fuel (skipSpace after)
        .ok (v :: vs, after)
      else .error .malformed

/-- The entries of an object up to its closing brace, put after the ones already read. -/
def entries : (nesting fuel : Nat) → Members → Text → Except Failure (Members × Text)
  | _, 0, _, _ => .error .malformed
  | nesting, fuel + 1, earlier, t =>
    match t with
    | [] => .error .malformed
    | c :: rest =>
      if c ≠ .char '"' then .error .malformed
      else match stringBody rest with
        | none => .error .malformed
        | some (key, after) =>
          match skipSpace after with
          | [] => .error .malformed
          | d :: after =>
            if d ≠ .char ':' then .error .malformed
            else do
              let (v, after) ← value nesting fuel (skipSpace after)
              let found := earlier.put key v
              match skipSpace after with
              | [] => .error .malformed
              | e :: after =>
                if e = .char '\x7d' then .ok (found, after)
                else if e = .char ',' then entries nesting fuel found (skipSpace after)
                else .error .malformed

end

/-- The value that a text is the JSON form of, with arrays and objects in it nested up to the limit. -/
def parse (nesting : Nat) (t : Text) : Except Failure Value := do
  let (v, after) ← value nesting (2 * t.length + 1) (skipSpace t)
  if skipSpace after = [] then .ok v else .error .malformed

end LedgerAbi.Json
