/-
Values: what callers pass as arguments, what calls return, and what JSON documents hold.

* `Value` is the one type of all of them; the entries of a dictionary keep their order;
* `Value.isTruthy` tells empty values from others;
* `Value.same` compares as numbers do, so that `true`, `1` and `1.0` are the same, and ignores the
  order of dictionary entries;
* `Members` are the entries of a dictionary, with look-up and change by key.
-/
import LedgerAbi.Text.Numeral
import LedgerAbi.Text.Utf8
import LedgerAbi.Number.Binary64

namespace LedgerAbi

/-- A value of any shape. -/
inductive Value where
  | none
  | bool (b : Bool)
  | int (i : Int)
  | float (x : Binary64)
  | text (t : Text)
  | bytes (b : Bytes)
  | list (items : List Value)
  | dict (entries : List (Text × Value))
deriving Inhabited

namespace Value

instance : Coe Text Value := ⟨text⟩

/-- False for the empty values: nothing, false, zero, and texts, bytes, lists and dictionaries
without contents. -/
def isTruthy : Value → Bool
  | none => false
  | bool b => b
  | int i => i != 0
  | float x => !x.isZero
  | text t => !t.isEmpty
  | bytes b => !b.isEmpty
  | list items => !items.isEmpty
  | dict entries => !entries.isEmpty

/-- The value itself, unless it is empty. -/
def truthy? (v : Value) : Option Value := if v.isTruthy then some v else Option.none

/-- A number, as an integer or else as a double. -/
inductive Numeric where
  | int (i : Int)
  | float (x : Binary64)

def numeric? : Value → Option Numeric
  | bool b => some (.int (if b then 1 else 0))
  | int i => some (.int i)
  | float x => some (.float x)
  | _ => Option.none

namespace Numeric

/-- Equal as numbers; the undefined double counts as one value. -/
def same : Numeric → Numeric → Bool
  | int i, int j => i == j
  | int i, float x => x.toInt? == some i
  | float x, int i => x.toInt? == some i
  | float x, float y => x.equal y || x == y

/-- Strictly smaller as numbers. -/
def less : Numeric → Numeric → Bool
  | int i, int j => i < j
  | int i, float x => x.isAbove i
  | float x, int i => x.isBelow i
  | float x, float y => x.less y

end Numeric

mutual

/-- Equality of values, with numbers compared across their kinds. -/
def same : Value → Value → Bool
  | none, none => true
  | text t, text u => t == u
  | bytes b, bytes c => b == c
  | list xs, list ys => sameItems xs ys
  | dict xs, dict ys => xs.length == ys.length && sameEntries xs ys
  | v, w => match v.numeric?, w.numeric? with
    | some a, some b => a.same b
    | _, _ => false

/-- Equality of lists, item by item. -/
def sameItems : List Value → List Value → Bool
  | [], [] => true
  | x :: xs, y :: ys => same x y && sameItems xs ys
  | _, _ => false

/-- True if every entry occurs, under its key, in another list of entries. -/
def sameEntries : List (Text × Value) → List (Text × Value) → Bool
  | [], _ => true
  | (k, x) :: rest, ys =>
    (match ys.lookup k with
      | some y => same x y
      | Option.none => false) && sameEntries rest ys

end

/-- True if the value can be a key: everything but lists and dictionaries. -/
def isKey : Value → Bool
  | list _ => false
  | dict _ => false
  | _ => true

end Value

/-- The entries of a dictionary, in order. -/
abbrev Members := List (Text × Value)

namespace Members

/-- The value under a key. -/
def get? (m : Members) (key : Text) : Option Value := m.lookup key

/-- The value under a key, or a default where there is none. -/
def getD (m : Members) (key : Text) (default : Value) : Value := (m.get? key).getD default

/-- A value put under a key: in the place of the entry with that key, or at the end. -/
def put (m : Members) (key : Text) (v : Value) : Members :=
  match m with
  | [] => [(key, v)]
  | (k, w) :: rest => if k = key then (k, v) :: rest else (k, w) :: put rest key v

end Members

end LedgerAbi
