/-
Values as they are shown inside messages.

* `Value.shown` quotes texts, at any depth;
* `Value.plain` leaves a text at the top as it is;
* an integer of more than `digitLimit` digits cannot be written out: `Value.isOverlong`.
-/
import LedgerAbi.Text.Quoted
import LedgerAbi.Value.Basic

namespace LedgerAbi.Value

mutual

/-- A value with its texts in quotes. -/
def shown : Value → Text
  | none => "None"
  | bool b => if b then "True" else "False"
  | int i => Text.ofInt i
  | float x => x.shown
  | text t => t.quoted
  | bytes b => Bytes.quoted b
  | list items => "[" ++ Text.join ", " (shownItems items) ++ "]"
  | dict entries => "\x7b" ++ Text.join ", " (shownEntries entries) ++ "\x7d"

def shownItems : List Value → List Text
  | [] => []
  | v :: rest => shown v :: shownItems rest

def shownEntries : List (Text × Value) → List Text
  | [] => []
  | (key, v) :: rest => (key.quoted ++ ": " ++ shown v) :: shownEntries rest

end

/-- A value as it stands in running text: a text without quotes. -/
def plain : Value → Text
  | text t => t
  | v => v.shown

mutual

/-- True if some integer inside has too many digits to be written out. -/
def isOverlong : Value → Bool
  | int i => exceedsDigitLimit i
  | list items => anyOverlong items
  | dict entries => anyEntryOverlong entries
  | _ => false

def anyOverlong : List Value → Bool
  | [] => false
  | v :: rest => isOverlong v || anyOverlong rest

def anyEntryOverlong : List (Text × Value) → Bool
  | [] => false
  | (_, v) :: rest => isOverlong v || anyEntryOverlong rest

end

/-- The name of the kind of a value. -/
def kindName : Value → Text
  | none => "NoneType"
  | bool _ => "bool"
  | int _ => "int"
  | float _ => "float"
  | text _ => "str"
  | bytes _ => "bytes"
  | list _ => "list"
  | dict _ => "dict"

/-- The kind of a value as messages name it. -/
def kindShown (v : Value) : Text := "<class '" ++ v.kindName ++ "'>"

/-- Texts as a list of quoted texts. -/
def shownTexts (ts : List Text) : Text := "[" ++ Text.join ", " (ts.map Text.quoted) ++ "]"

end LedgerAbi.Value
