/-
Values as keys.

* `Value.keyLess?` orders texts by code points and numbers by size;
* `Value.repeated` finds the keys that occur more than once.
-/
import LedgerAbi.Value.Basic

namespace LedgerAbi

namespace Value

/-- True if the first text comes before the second in the order of code points. -/
def textLess : Text → Text → Bool
  | _, [] => false
  | [], _ :: _ => true
  | c :: t, d :: u => c.toNat < d.toNat || (c == d && textLess t u)

/-- The order of two keys, if they are both texts or both numbers. -/
def keyLess? : Value → Value → Option Bool
  | text t, text u => some (textLess t u)
  | v, w => match v.numeric?, w.numeric? with
    | some a, some b => some (a.less b)
    | _, _ => Option.none

/-- Keys in ascending order, if each two of them have one. -/
def sortKeys? (keys : List Value) : Option (List Value) :=
  if keys.length ≤ 1 ∨ keys.all (fun v => keys.all fun w => (keyLess? v w).isSome) then
    some (keys.mergeSort fun v w => keyLess? w v != some true)
  else Option.none

/-- The keys that occur again later, each once. -/
def repeated : List Value → List Value
  | [] => []
  | key :: rest =>
    let later := repeated rest
    if rest.any key.same && !later.any key.same then key :: later
    else if later.any key.same then key :: later.filter (fun k => !k.same key)
    else later

end Value

end LedgerAbi
