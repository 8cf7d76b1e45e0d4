/-
The settings that every call carries.

Settings come from documents, so their fields are read leniently: a whole number may be written as a
boolean, a double or a text. A field that cannot be read makes the whole configuration invalid.
-/
import LedgerAbi.Error

namespace LedgerAbi

/-- Gas, fee and amount of every call, and the account that calls when no other is given. -/
structure Config where
  gasLimit : Int
  fee : Int
  amount : Int
  defaultAccount : Text

namespace Config

/-- The settings that hold where nothing else is said. -/
def standard : Config where
  gasLimit := 1111111111
  fee := 1111111111
  amount := 1
  defaultAccount := List.replicate 40 (.char '0')

/-- The text of a value that is a text or its UTF-8 form. -/
def text? : Value → Option Text
  | .text t => some t
  | .bytes b => Text.ofUtf8? b
  | _ => none

/-- The whole number of a value. -/
def wholeNumber? : Value → Option Int
  | .bool b => some (if b then 1 else 0)
  | .int i => some i
  | .float x => x.toInt?.filter fun i => i.natAbs < 2 ^ 63
  | v => (text? v).bind Text.wholeNumber?

/-- A field read from the members of a configuration, or its standard where it is missing. -/
def field {α : Type} (members : Members) (name : Text) (read? : Value → Option α) (standard : α) :
    Except Error α :=
  match members.get? name with
  | none => .ok standard
  | some v => match read? v with
    | some a => .ok a
    | none => .error (.fault .invalidConfig)

/-- Reads a configuration. Members of other names are ignored. -/
def ofMembers (members : Members) : Except Error Config := do
  let gasLimit ← field members "gas_limit" wholeNumber? standard.gasLimit
  let fee ← field members "fee" wholeNumber? standard.fee
  let amount ← field members "amount" wholeNumber? standard.amount
  let defaultAccount ← field members "default_account" text? standard.defaultAccount
  .ok { gasLimit, fee, amount, defaultAccount }

/-- Reads a configuration; an empty value stands for the standard one. -/
def ofValue (v : Value) : Except Error Config :=
  match v with
  | .dict members => ofMembers members
  | _ => if v.isTruthy then .error (.fault .wrongKind) else .ok standard

end Config

end LedgerAbi
