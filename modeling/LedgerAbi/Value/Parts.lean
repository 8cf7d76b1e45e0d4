/-
The parts of values that have some.

* `Value.items` are what one meets walking through a value;
* `Value.members` are the entries of a dictionary.
-/
import LedgerAbi.Error

namespace LedgerAbi

namespace Value

/-- The parts of a value, in order: the items of a list, the code points of a text, the keys of a
dictionary, the numbers of bytes. Other values have none. -/
def items : Value → Except Error (List Value)
  | list vs => .ok vs
  | text t => .ok (t.map fun c => text [c])
  | dict entries => .ok (entries.map fun (key, _) => text key)
  | bytes b => .ok (b.map fun n => int n.toNat)
  | _ => .error (.fault .wrongKind)

/-- The entries of a dictionary. -/
def members : Value → Except Error Members
  | dict entries => .ok entries
  | _ => .error (.fault .noMembers)

end Value

end LedgerAbi
