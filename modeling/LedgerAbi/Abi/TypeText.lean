/-
Reading type texts.

A type text is a base of letters, an optional size, and array dimensions, the last of which is the
outermost: `uint8[2][]` is an array of pairs. Parentheses group tuples. The grammar is wider than the
types of `AbiType`; what lies between is told apart by the causes of `InvalidType`.

* `TypeSyntax.parse?` recognises the grammar;
* `TypeSyntax.isValid` checks the sizes of the bases that have rules for them;
* `AbiType.ofText` reads a type, `AbiType.ofValue` also refuses what is no text.
-/
import LedgerAbi.Error

namespace LedgerAbi

/-- The size after a base: one number, or two with an `x` between them. -/
inductive Suffix where
  | one (n : Nat)
  | two (m n : Nat)
deriving DecidableEq

/-- A base with its size and its dimensions; a dimension without a length is open. -/
structure BasicSyntax where
  base : Text
  suffix : Option Suffix
  dimensions : List (Option Length)
deriving DecidableEq

/-- A text of the type grammar. -/
inductive TypeSyntax where
  | basic (type : BasicSyntax)
  | tuple (components : List TypeSyntax) (dimensions : List (Option Length))

namespace TypeSyntax

/-- A positive number without leading zeros at the start of a text, and the rest. -/
def number? (t : Text) : Option (Length × Text) :=
  let (digits, rest) := t.span CodePoint.isAsciiDigit
  if digits.head? = some (.char '0') then none
  else
    let n := digits.foldl (fun n c => n * 10 + (c.toNat - 48)) 0
    if h : 0 < n then some (⟨n, h⟩, rest) else none

/-- The size at the start of a text, if there is one, and the rest. -/
def suffixAt (t : Text) : Option Suffix × Text :=
  match number? t with
  | none => (none, t)
  | some (m, rest) =>
    match rest with
    | [] => (some (.one m.items), [])
    | c :: after =>
      match if c = .char 'x' then number? after else none with
      | some (n, after) => (some (.two m.items n.items), after)
      | none => (some (.one m.items), rest)

/-- The dimension at the start of a text, and the rest. -/
def dimension? : Text → Option (Option Length × Text)
  | c :: d :: rest =>
    if c ≠ .char '[' then none
    else if d = .char ']' then some (none, rest)
    else match number? (d :: rest) with
      | some (n, e :: after) => if e = .char ']' then some (some n, after) else none
      | _ => none
  | _ => none

/-- As many dimensions as start a text, but at most the given number, and the rest. -/
def dimensionsAt : Nat → Text → List (Option Length) × Text
  | 0, t => ([], t)
  | most + 1, t =>
    match dimension? t with
    | none => ([], t)
    | some (d, rest) =>
      let (ds, rest) := dimensionsAt most rest
      (d :: ds, rest)

/-- The basic type at the start of a text, and the rest. -/
def basic? (t : Text) : Option (BasicSyntax × Text) :=
  let (base, rest) := t.span CodePoint.isAsciiLetter
  if base = [] then none
  else
    let (suffix, rest) := suffixAt rest
    let (dimensions, rest) := dimensionsAt rest.length rest
    some (⟨base, suffix, dimensions⟩, rest)

mutual

/-- The type at the start of a text, and the rest. Each call uses up one unit of fuel. -/
def typeAt : Nat → Text → Option (TypeSyntax × Text)
  | 0, _ => none
  | fuel + 1, t =>
    match t with
    | [] => none
    | c :: rest =>
      if c = .char '(' then do
        let (components, rest) ← componentsAt fuel rest
        let (dimensions, rest) := dimensionsAt rest.length rest
        some (tuple components dimensions, rest)
      else (basic? t).map fun (b, rest) => (basic b, rest)

/-- The components of a tuple up to its closing parenthesis, and the rest. -/
def componentsAt : Nat → Text → Option (List TypeSyntax × Text)
  | 0, _ => none
  | fuel + 1, t => do
    let (component, rest) ← typeAt fuel t
    match rest with
    | [] => none
    | c :: rest =>
      if c = .char ')' then some ([component], rest)
      else if c = .char ',' then do
        let (components, rest) ← componentsAt fuel rest
        some (component :: components, rest)
      else none

end

/-- The syntax of a whole text. -/
def parse? (t : Text) : Option TypeSyntax :=
  match typeAt (2 * t.length) t with
  | some (syn, []) => some syn
  | _ => none

end TypeSyntax

namespace BasicSyntax

/-- The sizes that a base without a size stands for. -/
def aliases : List (Text × Text × Suffix) := [
  ("int", "int", .one 256), ("uint", "uint", .one 256), ("fixed", "fixed", .two 128 18),
  ("ufixed", "ufixed", .two 128 18), ("function", "bytes", .one 24), ("byte", "bytes", .one 1)]

/-- The base with the size that it stands for. -/
def expanded (b : BasicSyntax) : BasicSyntax :=
  match b.suffix, aliases.lookup b.base with
  | none, some (base, suffix) => { b with base := base, suffix := some suffix }
  | _, _ => b

/-- A number of bits from 8 to 256 in steps of 8. -/
def isBitSize (n : Nat) : Bool := 8 ≤ n && n ≤ 256 && n % 8 == 0

/-- True if the size is one that the base can have; bases without a rule can have any. -/
def isValid (b : BasicSyntax) : Bool :=
  if b.base = "string" ∨ b.base = "address" then b.suffix.isNone
  else if b.base = "bytes" then
    match b.suffix with
    | none => true
    | some (.one n) => n ≤ 32
    | some (.two _ _) => false
  else if b.base = "int" ∨ b.base = "uint" then
    match b.suffix with
    | some (.one n) => isBitSize n
    | _ => false
  else if b.base = "fixed" ∨ b.base = "ufixed" then
    match b.suffix with
    | some (.two m n) => isBitSize m && 1 ≤ n && n ≤ 80
    | _ => false
  else if b.base = "hash" then
    match b.suffix with
    | some (.one _) => true
    | _ => false
  else true

/-- The scalar type of a base with its size. -/
def scalar? (b : BasicSyntax) : Option AbiType :=
  match b.suffix with
  | none =>
    if b.base = "address" then some .address
    else if b.base = "bool" then some .bool
    else if b.base = "string" then some .string
    else if b.base = "bytes" then some .bytes
    else none
  | some (.one n) =>
    if b.base = "bytes" then (Width.ofBytes? n).map .fixedBytes
    else if b.base = "uint" then (Width.ofBits? n).map .uint
    else if b.base = "int" then (Width.ofBits? n).map .int
    else none
  | some (.two _ _) => none

/-- An array type of one dimension. -/
def arrayOf (element : AbiType) : Option Length → AbiType
  | none => .array element
  | some n => .fixedArray element n

/-- The type with its dimensions, the last of which is the outermost. -/
def type? (b : BasicSyntax) : Option AbiType := b.scalar?.map fun t => b.dimensions.foldl arrayOf t

/-- The numbers in a type text. -/
def numbers (b : BasicSyntax) : List Nat :=
  b.dimensions.filterMap (·.map Length.items) ++ match b.suffix with
    | none => []
    | some (.one n) => [n]
    | some (.two m n) => [m, n]

end BasicSyntax

namespace TypeSyntax

mutual

/-- True if all bases, after expansion, have sizes that they can have. -/
def isValid : TypeSyntax → Bool
  | basic b => b.expanded.isValid
  | tuple components _ => allValid components

def allValid : List TypeSyntax → Bool
  | [] => true
  | t :: rest => isValid t && allValid rest

end

mutual

/-- The numbers in a type text. -/
def numbers : TypeSyntax → List Nat
  | basic b => b.numbers
  | tuple components dimensions =>
    allNumbers components ++ dimensions.filterMap (·.map Length.items)

def allNumbers : List TypeSyntax → List Nat
  | [] => []
  | t :: rest => numbers t ++ allNumbers rest

end

/-- True if a text holds an opening parenthesis directly before a closing one. -/
def hasEmptyTuple : Text → Bool
  | c :: d :: rest => (c == .char '(' && d == .char ')') || hasEmptyTuple (d :: rest)
  | _ => false

end TypeSyntax

namespace AbiType

/-- The type that a text names. -/
def ofText (t : Text) : Except Error AbiType :=
  match TypeSyntax.parse? t with
  | none =>
    if TypeSyntax.hasEmptyTuple t then .error (.fault .emptyTuple)
    else .error (.invalidType (.malformed t))
  | some s =>
    if s.numbers.any fun n => exceedsDigitLimit n then .error (.fault .overlongDimension)
    else if !s.isValid then .error (.invalidType (.badSuffix t))
    else match s with
      | .tuple _ _ => .error (.invalidType (.tuple t))
      | .basic b => match b.expanded.type? with
        | some type => .ok type
        | none => .error (.invalidType (.unsupported t))

/-- The type that a value names. -/
def ofValue : Value → Except Error AbiType
  | .text t => ofText t
  | v => if v.isOverlong then .error (.fault .overlongInteger)
    else .error (.invalidType (.notText v))

end AbiType

end LedgerAbi
