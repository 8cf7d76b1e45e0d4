/-
Signatures: the name of an entry with the types of its inputs.

* `Entry.fullName` is the signature of an entry, or its name if that has a parameter list already;
* `Entry.shownName` is the same as messages show it, where a name need not be a text;
* `displayName` and `typeSuffix` take a signature apart;
* `Entry.selector` and `Entry.topic` are parts of the digest of the signature.
-/
import LedgerAbi.Abi.Entry
import LedgerAbi.Keccak

namespace LedgerAbi

/-- A signature without its parameter list. -/
def displayName (signature : Text) : Text := signature.before (.char '(')

/-- The parameter list of a signature, between its first opening and its last closing parenthesis,
without spaces. -/
def typeSuffix (signature : Text) : Text :=
  match (signature.cut (.char '(')).2 with
  | none => []
  | some list => (list.beforeLast (.char ')')).filter (· != .char ' ')

/-- The digest of a signature, whose spaces do not count. -/
def signatureDigest (signature : Text) : Except Error Bytes :=
  let t : Text := signature.filter (· != .char ' ')
  if t.isScalar then .ok (Keccak.digest t.toUtf8) else .error (.fault .unencodable)

namespace Entry

/-- True if a name holds an opening parenthesis: as a code point of a text, or as a part of another
value that has parts. -/
def nameHasList (name : Value) : Except Error Bool :=
  match name with
  | .text t => .ok (t.contains (.char '('))
  | .list items => .ok (items.any fun v => v.same (.text "("))
  | .dict entries => .ok (Members.get? entries "(").isSome
  | _ => .error (.fault .wrongKind)

/-- The signature of an entry as messages show it. A name that cannot be written out has none. -/
def shownName (e : Entry) : Except Error Text := do
  let hasList ← nameHasList e.name
  if e.name.isOverlong then .error (.fault .overlongInteger)
  else if hasList then .ok e.name.plain
  else .ok (e.name.plain ++ "(" ++ Text.join "," (e.inputTypes.map AbiType.canonical) ++ ")")

/-- The signature of an entry. A name that stands for the signature has to be a text. -/
def fullName (e : Entry) : Except Error Text := do
  if ← nameHasList e.name then
    match e.name with
    | .text t => .ok t
    | _ => .error (.fault .noMembers)
  else e.shownName

/-- The four bytes that call data of a function start with. -/
def selector (e : Entry) : Except Error Bytes := do
  let digest ← signatureDigest (← e.fullName)
  .ok (digest.take 4)

/-- The first topic of the logs of an event. -/
def topic (e : Entry) : Except Error Bytes := do signatureDigest (← e.fullName)

end Entry

end LedgerAbi
