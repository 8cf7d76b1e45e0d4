/-
What a call sends is what was asked for, and can be read back.

* `Binding.IsIndexed` — the functions of a binding have different signatures, each its own;
* `Binding.mem_signatures_iff` — so a listing has one selector for each function;
* `Payload.ofMembers` — reads the members of a request back, and `ofMembers_toMembers`
  says that nothing of a payload is lost in them;
* `Invocation.IsAsked` — a payload is what a call asked for;
* `sends_as_asked` — every payload that is sent is, and a call whose arguments cannot be
  encoded sends none.

Design notes: the offline encoder, the call and the writer of requests share the stages
`Invocation.start` and `Invocation.arguments`.  What the first makes of them is
`Invocation.encode_eq`, what the second does is `Invocation.request_eq`, so that one
equation for the data ties them together.
-/
import Mathlib.Data.List.Nodup
import LedgerAbi.Proofs.Abi.Document
import LedgerAbi.Proofs.Call.Rebinding

namespace LedgerAbi

/-! ### Selectors -/

theorem Keccak.length_digest (message : Bytes) : (digest message).length = 32 := by
  have hword (w : UInt64) : (wordBytes w).length = 8 := by
    rw [wordBytes, List.length_map, List.length_range]
  simp only [digest, List.length_flatMap, hword, List.map_const', List.length_take,
    Vector.length_toList, List.sum_replicate_nat]
  rfl

theorem Entry.length_selector {e : Entry} {selector : Bytes} (h : e.selector = .ok selector) :
    selector.length = 4 := by
  obtain ⟨signature, -, h⟩ := Except.bind_eq_ok_iff.mp h
  obtain ⟨digest, hdigest, h⟩ := Except.bind_eq_ok_iff.mp h
  cases h
  rw [signatureDigest_eq] at hdigest
  split at hdigest
  · cases hdigest
    rw [List.length_take, Keccak.length_digest]
    rfl
  · cases hdigest

/-- A selector takes a signature without lone surrogates. -/
theorem Entry.exists_selector_iff {e : Entry} {signature : Text} (h : e.fullName = .ok signature) :
    (∃ selector, e.selector = .ok selector) ↔ signature.isScalar = true := by
  rw [selector, h]
  show (∃ selector, signatureDigest signature >>= _ = _) ↔ _
  rw [signatureDigest_eq]
  split
  · next hscalar => exact iff_of_true ⟨_, rfl⟩ hscalar
  · next hscalar => exact iff_of_false nofun hscalar

/-! ### Listings -/

namespace Binding

/-- Each function has a signature of its own, and each event its topic. -/
structure IsIndexed (b : Binding) : Prop where
  signature : ∀ f ∈ b.functions, f.entry.fullName = .ok f.signature
  distinct : (b.functions.map BoundFunction.signature).Nodup
  topic : ∀ e ∈ b.events, ∃ topic, e.entry.topic = .ok topic

theorem nodup_putBound {α : Type} {signature : α → Text} (item : α) {items : List α}
    (h : (items.map signature).Nodup) : ((putBound signature item items).map signature).Nodup := by
  rw [List.Nodup, List.pairwise_map] at h ⊢
  induction items with
  | nil => exact List.pairwise_singleton _ _
  | cons other rest ih =>
    obtain ⟨hother, hrest⟩ := List.pairwise_cons.mp h
    rw [putBound]
    split
    · next hsame =>
      refine List.pairwise_cons.mpr ⟨?_, hrest⟩
      rw [← hsame]
      exact hother
    · next hdifferent =>
      refine List.pairwise_cons.mpr ⟨fun x hx => ?_, ih hrest⟩
      rcases mem_of_mem_putBound hx with rfl | hx
      · exact hdifferent
      · exact hother x hx

theorem isIndexed_of_ofValue {abi : Value} {config : Config} {address bytecode account : Value}
    {objectReturn : Bool} {b : Binding}
    (h : ofValue abi config address bytecode account objectReturn = .ok b) : b.IsIndexed := by
  obtain ⟨a, code, caller, entries, -, -, -, -, h⟩ := exists_entries_of_ofValue h
  refine addEntries_induction (P := IsIndexed) ?_ ?_ ?_ ?_ h
  · intro b e f _ hf hb
    obtain ⟨signature, hsignature, hf⟩ := Except.bind_eq_ok_iff.mp hf
    cases hf
    refine ⟨fun g hg => ?_, nodup_putBound _ hb.distinct, hb.topic⟩
    rcases mem_of_mem_putBound hg with rfl | hg
    · exact hsignature
    · exact hb.signature g hg
  · intro b e event _ hevent hb
    obtain ⟨signature, -, hevent⟩ := Except.bind_eq_ok_iff.mp hevent
    obtain ⟨topic, htopic, hevent⟩ := Except.bind_eq_ok_iff.mp hevent
    cases hevent
    refine ⟨hb.signature, hb.distinct, fun event hevent => ?_⟩
    rcases mem_of_mem_putBound hevent with rfl | hevent
    · exact ⟨topic, htopic⟩
    · exact hb.topic event hevent
  · intro b e _ hb
    exact ⟨hb.signature, hb.distinct, hb.topic⟩
  · exact ⟨nofun, List.nodup_nil, nofun⟩

/-- The row of a function in a listing. -/
def functionRow (f : BoundFunction) : Except Error (EntryKind × Text × Text) := do
  let selector ← f.entry.selector
  .ok (EntryKind.function, f.signature, Hex.ofBytes selector)

/-- The row of an event in a listing. -/
def eventRow (e : BoundEvent) : Except Error (EntryKind × Text × Text) := do
  let topic ← e.entry.topic
  .ok (EntryKind.event, e.signature, Hex.ofBytes topic)

theorem signatures_eq (b : Binding) : b.signatures = (do
    let functions ← b.functions.mapM functionRow
    let events ← b.events.mapM eventRow
    .ok (functions ++ events)) := rfl

variable {b : Binding}

/-- A binding can be listed if the signatures of its functions are free of lone surrogates. -/
theorem exists_signatures_iff (hb : b.IsIndexed) :
    (∃ rows, b.signatures = .ok rows) ↔ ∀ f ∈ b.functions, f.signature.isScalar = true := by
  constructor
  · rintro ⟨rows, h⟩ f hf
    obtain ⟨functions, hfunctions, -⟩ := Except.bind_eq_ok_iff.mp h
    obtain ⟨row, hrow⟩ := List.exists_forall₂_iff.mp ⟨_, Except.mapM_eq_ok_iff.mp hfunctions⟩ f hf
    obtain ⟨selector, hselector, -⟩ := Except.bind_eq_ok_iff.mp hrow
    exact (Entry.exists_selector_iff (hb.signature f hf)).mp ⟨selector, hselector⟩
  · intro hscalar
    obtain ⟨functions, hfunctions⟩ : ∃ rows, b.functions.mapM functionRow = .ok rows := by
      refine Except.exists_mapM_eq_ok fun f hf => ?_
      obtain ⟨selector, hselector⟩ :=
        (Entry.exists_selector_iff (hb.signature f hf)).mpr (hscalar f hf)
      exact ⟨_, by rw [functionRow, hselector]; rfl⟩
    obtain ⟨events, hevents⟩ : ∃ rows, b.events.mapM eventRow = .ok rows := by
      refine Except.exists_mapM_eq_ok fun e he => ?_
      obtain ⟨topic, htopic⟩ := hb.topic e he
      exact ⟨_, by rw [eventRow, htopic]; rfl⟩
    exact ⟨functions ++ events, by rw [signatures_eq, hfunctions, hevents]; rfl⟩

/-- A listing has one selector for each function. -/
theorem mem_signatures_iff (hb : b.IsIndexed) {rows : List (EntryKind × Text × Text)}
    (h : b.signatures = .ok rows) {f : BoundFunction} (hf : f ∈ b.functions) {selector : Bytes}
    (hselector : f.entry.selector = .ok selector) (shown : Text) :
    (EntryKind.function, f.signature, shown) ∈ rows ↔ shown = Hex.ofBytes selector := by
  obtain ⟨functions, hfunctions, h⟩ := Except.bind_eq_ok_iff.mp h
  obtain ⟨events, hevents, h⟩ := Except.bind_eq_ok_iff.mp h
  cases h
  have hrow : functionRow f = .ok (EntryKind.function, f.signature, Hex.ofBytes selector) := by
    rw [functionRow, hselector]
    rfl
  constructor
  · intro hmem
    rcases List.mem_append.mp hmem with hmem | hmem
    · obtain ⟨g, hg, hshown⟩ := Except.exists_of_mem_mapM hfunctions hmem
      obtain ⟨found, hfound, hshown⟩ := Except.bind_eq_ok_iff.mp hshown
      injection hshown with hshown
      injection hshown with _ hshown
      injection hshown with hsignature hshown
      -- no other function has the signature of the row
      rw [List.inj_on_of_nodup_map hb.distinct hg hf hsignature, hselector] at hfound
      cases hfound
      exact hshown.symm
    · obtain ⟨e, -, hshown⟩ := Except.exists_of_mem_mapM hevents hmem
      obtain ⟨topic, -, hshown⟩ := Except.bind_eq_ok_iff.mp hshown
      cases hshown
  · rintro rfl
    obtain ⟨row, hmem, hrow'⟩ := List.exists_of_forall₂ (Except.mapM_eq_ok_iff.mp hfunctions) hf
    obtain rfl : _ = row := Except.ok.inj (hrow.symm.trans hrow')
    exact List.mem_append_left events hmem

/-- The offline encoder puts the selector of a function before its arguments. -/
theorem encode_of_function {name : Text} {f : BoundFunction} (hname : b.function name = .ok f)
    (hkind : f.entry.kind = .function) (args : List Value) :
    b.encode name args = (do
      let selector ← f.entry.selector
      let encoded ← encodeValues f.entry.inputTypes args
      .ok (Hex.ofBytes (selector ++ encoded))) := by
  have hconstructor : f.entry.isConstructor = false := by
    rw [Entry.isConstructor, hkind]
    rfl
  have hdata : callData (some f.entry) args .none = (do
      let selector ← f.entry.selector
      let encoded ← encodeValues f.entry.inputTypes args
      .ok (selector ++ encoded)) := by
    simp only [callData, hconstructor, Bool.false_eq_true, if_false]
  rw [encode, hname]
  show callData (some f.entry) args .none >>= _ = _
  rw [hdata]
  simp only [bind_assoc]
  rfl

theorem mem_of_function {name : Text} {f : BoundFunction} (h : b.function name = .ok f) :
    f ∈ b.functions := by
  rw [function] at h
  cases hfound : b.function? name with
  | error cause =>
    rw [hfound] at h
    cases h
  | ok found =>
    rw [hfound] at h
    cases h
    exact mem_of_find hfound

theorem mem_of_callee {name : Option Text} {f : BoundFunction}
    (h : b.callee name = .ok (.function f)) : f ∈ b.functions := by
  cases name with
  | none => cases h
  | some name =>
    rw [callee] at h
    cases hname : b.function name with
    | error e =>
      rw [hname] at h
      cases h
    | ok found =>
      rw [hname] at h
      cases h
      exact mem_of_function hname

end Binding

/-! ### Requests read back -/

namespace Payload

/-- The number that a value is. -/
def integer : Value → Except Error Int
  | .int i => .ok i
  | _ => .error (.fault .wrongKind)

/-- The target that some bytes of a request stand for. No bytes stand for a creation. -/
def targetOf (b : Bytes) : Option Bytes := if b.isEmpty then none else some b

/-- Reads the members of a request back, the bytes from their digits. -/
def ofMembers (m : Members) : Except Error Payload := do
  let input ← (m.getD "Input" .none).members
  let account ← (input.getD "Address" .none).hexBytes
  let amount ← integer (input.getD "Amount" .none)
  let target ← (m.getD "Address" .none).hexBytes
  let gasLimit ← integer (m.getD "GasLimit" .none)
  let fee ← integer (m.getD "Fee" .none)
  let data ← (m.getD "Data" .none).hexBytes
  .ok { account, amount, target := targetOf target, gasLimit, fee, data }

theorem hexBytes_ofBytes (b : Bytes) : (Value.text (Hex.ofBytes b)).hexBytes = .ok b := by
  rw [Value.hexBytes, Hex.read?_ofBytes]

/-- The members of a payload, of which the address is empty without a target. -/
theorem toMembers_eq (p : Payload) : p.toMembers = ([
    ("Input", .dict [("Address", .text (Hex.ofBytes p.account)), ("Amount", .int p.amount)]),
    ("Address", .text (p.target.elim [] Hex.ofBytes)), ("GasLimit", .int p.gasLimit),
    ("Fee", .int p.fee), ("Data", .text (Hex.ofBytes p.data))] : Members) := by
  rw [toMembers]
  cases p.target <;> rfl

/-- Nothing of a payload is lost in its members, unless its target is an empty sequence. -/
theorem ofMembers_toMembers {p : Payload} (h : p.target ≠ some []) : ofMembers p.toMembers = .ok p := by
  obtain ⟨account, amount, target, gasLimit, fee, data⟩ := p
  -- no digits are read as no bytes, which stand for no target
  have htarget : ∃ b, (Value.text (target.elim [] Hex.ofBytes)).hexBytes = .ok b ∧
      targetOf b = target := by
    cases target with
    | none => exact ⟨[], rfl, rfl⟩
    | some b =>
      refine ⟨b, hexBytes_ofBytes b, if_neg ?_⟩
      rw [List.isEmpty_iff]
      rintro rfl
      exact h rfl
  obtain ⟨b, hb, rfl⟩ := htarget
  rw [toMembers_eq]
  show (do
    let account ← (Value.text (Hex.ofBytes account)).hexBytes
    let target ← (Value.text ((targetOf b).elim [] Hex.ofBytes)).hexBytes
    let data ← (Value.text (Hex.ofBytes data)).hexBytes
    .ok (Payload.mk account amount (targetOf target) gasLimit fee data)) = _
  rw [hexBytes_ofBytes, hexBytes_ofBytes, hb]
  rfl

/-- So no other payload has the same members. -/
theorem eq_of_toMembers_eq {p q : Payload} (hp : p.target ≠ some []) (hq : q.target ≠ some [])
    (h : p.toMembers = q.toMembers) : p = q := by
  have hread := ofMembers_toMembers hp
  rw [h, ofMembers_toMembers hq] at hread
  exact (Except.ok.inj hread).symm

end Payload

/-! ### Bytecode -/

/-- The bytes of a bytecode value, of which an empty one stands for no bytes. -/
def Value.codeBytes (v : Value) : Except Error Bytes := ((v.truthy?).getD (.bytes [])).hexBytes

theorem Value.codeBytes_text (t : Text) : (text t).codeBytes = (text t).hexBytes := by
  cases t with
  | nil => rfl
  | cons c rest => rfl

namespace Binding

variable {abi address bytecode account : Value} {config : Config} {objectReturn : Bool} {b : Binding}

theorem bytecode_addEntries {c : Binding} {entries : List Entry} (h : b.addEntries entries = .ok c) :
    c.bytecode = b.bytecode :=
  addEntries_induction (P := fun c => c.bytecode = b.bytecode) (fun _ _ _ _ _ h => h)
    (fun _ _ _ _ _ h => h) (fun _ _ _ h => h) rfl h

/-- A binding keeps the bytes of the bytecode that it was given. -/
theorem codeBytes_bytecodeValue
    (hb : ofValue abi config address bytecode account objectReturn = .ok b) {code : Bytes}
    (h : bytecode.codeBytes = .ok code) : b.bytecodeValue.codeBytes = .ok code := by
  obtain ⟨_, kept, _, entries, -, hkept, -, -, hadd⟩ := exists_entries_of_ofValue hb
  rw [bytecodeValue, bytecode_addEntries hadd]
  rw [optionalBytecode] at hkept
  -- an empty value is kept as none and read as no bytes, all others are kept in digits
  by_cases htruthy : bytecode.isTruthy = true
  · rw [Value.codeBytes, Value.truthy?, if_pos htruthy] at h
    rw [if_pos htruthy] at hkept
    cases bytecode with
    | bytes given =>
      cases hkept
      cases h
      exact (Value.codeBytes_text _).trans (Payload.hexBytes_ofBytes _)
    | text t =>
      cases hkept
      have hread : Hex.read? t = some code := by
        simp only [Option.getD_some, Value.hexBytes] at h
        split at h
        · next hread =>
          cases h
          exact hread
        · cases h
      refine (Value.codeBytes_text _).trans ?_
      rw [Value.hexBytes, Hex.read?_normalize hread]
    | none => cases h
    | bool _ => cases h
    | int _ => cases h
    | float _ => cases h
    | list _ => cases h
    | dict _ => cases h
  · rw [Value.codeBytes, Value.truthy?, if_neg htruthy] at h
    rw [if_neg htruthy] at hkept
    cases hkept
    exact h

end Binding

/-! ### What is sent -/

namespace Invocation

theorem calledAddress_eq_ok_iff {i : Invocation} {target : Option Bytes} :
    i.calledAddress = .ok target ↔
      (i.callee.isConstructor = true ∧ target = none) ∨
      (i.callee.isConstructor = false ∧
        ∃ a, Address.ofValue i.target = .ok a ∧ target = some a.bytes) := by
  rw [calledAddress]
  cases i.callee.isConstructor with
  | true => simp [eq_comm]
  | false => cases Address.ofValue i.target <;> simp [Except.map, eq_comm]

/-- A constructor is the callee without a target. -/
theorem calledAddress_none_iff {i : Invocation} {target : Option Bytes}
    (h : i.calledAddress = .ok target) : target = none ↔ i.callee.isConstructor = true := by
  rcases calledAddress_eq_ok_iff.mp h with ⟨hconstructor, rfl⟩ | ⟨hfunction, a, -, rfl⟩
  · exact iff_of_true rfl hconstructor
  · rw [hfunction]
    exact iff_of_false nofun Bool.false_ne_true

/-- The target of a function is the address that is called. -/
theorem address_of_calledAddress {i : Invocation} {b : Bytes} (h : i.calledAddress = .ok (some b)) :
    b.length = 20 ∧ ∃ a, Address.ofValue i.target = .ok a ∧ b = a.bytes := by
  rcases calledAddress_eq_ok_iff.mp h with ⟨-, hnone⟩ | ⟨-, a, ha, hsome⟩
  · cases hnone
  · cases hsome
    exact ⟨a.length_eq, a, ha, rfl⟩

/-- The stages of a call that has a request, and the request that they make. -/
theorem exists_stages_of_request {i : Invocation} (hdeclared : i.callee.IsDeclared)
    {sent : Rpc.CallKind × Payload} (h : i.request = .ok sent) :
    ∃ target caller start encoded, i.IsChecked ∧ i.calledAddress = .ok target ∧
      Address.ofValue i.caller = .ok caller ∧ i.start = .ok start ∧ i.arguments = .ok encoded ∧
      sent.2 = ⟨caller.bytes, i.binding.config.amount, target, i.binding.config.gasLimit,
        i.binding.config.fee, start ++ encoded⟩ := by
  have hchecked : i.IsChecked := by
    obtain ⟨u, hvalid, -⟩ := Except.bind_eq_ok_iff.mp h
    exact validate_eq_ok_iff.mp hvalid
  rw [request_eq hdeclared hchecked] at h
  obtain ⟨target, htarget, h⟩ := Except.bind_eq_ok_iff.mp h
  obtain ⟨caller, hcaller, h⟩ := Except.bind_eq_ok_iff.mp h
  obtain ⟨data, hdata, h⟩ := Except.bind_eq_ok_iff.mp h
  obtain ⟨start, hstart, hdata⟩ := Except.bind_eq_ok_iff.mp hdata
  obtain ⟨encoded, hencoded, hdata⟩ := Except.bind_eq_ok_iff.mp hdata
  cases hdata
  split at h
  · cases h
  cases h
  exact ⟨target, caller, start, encoded, hchecked, htarget, hcaller, hstart, hencoded, rfl⟩

/-- The offline encoder makes the same two stages of a function and its arguments. -/
theorem encode_eq {i : Invocation} {name : Text} {f : BoundFunction} (hcallee : i.callee = .function f)
    (hname : i.binding.function name = .ok f) (hkind : f.entry.kind = .function) :
    i.binding.encode name i.args = (do
      let start ← i.start
      let encoded ← i.arguments
      .ok (Hex.ofBytes (start ++ encoded))) := by
  rw [Binding.encode_of_function hname hkind]
  simp only [start, arguments, hcallee, Callee.entry?]

/-- A payload is what a call asked for, on a binding that was given some bytecode. -/
structure IsAsked (i : Invocation) (bytecode : Value) (p : Payload) : Prop where
  account : p.account.length = 20 ∧ ∃ a, Address.ofValue i.caller = .ok a ∧ p.account = a.bytes
  creation : p.target = none ↔ i.callee.isConstructor = true
  target : ∀ b, p.target = some b →
    b.length = 20 ∧ ∃ a, Address.ofValue i.target = .ok a ∧ b = a.bytes
  settings : p.amount = i.binding.config.amount ∧ p.gasLimit = i.binding.config.gasLimit ∧
    p.fee = i.binding.config.fee
  /-- The selector that the binding lists for the function, and its arguments. -/
  function : ∀ f, i.callee = .function f → ∃ selector encoded, selector.length = 4 ∧
    encodeValues f.entry.inputTypes i.args = .ok encoded ∧ p.data = selector ++ encoded ∧
    (∀ rows, i.binding.signatures = .ok rows →
      ∀ shown, (EntryKind.function, f.signature, shown) ∈ rows ↔ shown = Hex.ofBytes selector) ∧
    ∀ name, i.binding.function name = .ok f →
      i.binding.encode name i.args = .ok (Hex.ofBytes p.data)
  /-- The bytecode as it was given, and the arguments of the constructor. -/
  constructor : ∀ entry, i.callee = .constructor entry → ∃ code encoded,
    i.binding.bytecodeValue.codeBytes = .ok code ∧
    (∀ given, bytecode.codeBytes = .ok given → code = given) ∧
    (entry = none → i.args = [] ∧ encoded = []) ∧
    (∀ e, entry = some e → encodeValues e.inputTypes i.args = .ok encoded) ∧
    p.data = code ++ encoded
  recovered : Payload.ofMembers p.toMembers = .ok p
  injective : ∀ q : Payload, q.target ≠ some [] → q.toMembers = p.toMembers → q = p

section Asked

variable {abi address bytecode account : Value} {config : Config} {objectReturn : Bool}
variable {i : Invocation} {name : Option Text}
variable (hbinding : Binding.ofValue abi config address bytecode account objectReturn = .ok i.binding)
variable (hcallee : i.binding.callee name = .ok i.callee)
include hbinding hcallee

theorem isAsked_of_request {sent : Rpc.CallKind × Payload} (h : i.request = .ok sent) :
    i.IsAsked bytecode sent.2 := by
  have hdeclared := Binding.isDeclared_of_callee (Binding.isSorted_of_ofValue hbinding) hcallee
  obtain ⟨target, caller, start, encoded, hchecked, htarget, hcaller, hstart, hencoded, hsent⟩ :=
    exists_stages_of_request hdeclared h
  -- no address is empty, so an empty target can stand for none
  have hplace : sent.2.target ≠ some [] := by
    rw [hsent]
    rintro rfl
    exact absurd (address_of_calledAddress htarget).1 (by decide)
  rw [hsent] at hplace ⊢
  refine ⟨⟨caller.length_eq, caller, hcaller, rfl⟩, calledAddress_none_iff htarget, ?_, ⟨rfl, rfl, rfl⟩,
    ?_, ?_, Payload.ofMembers_toMembers hplace, fun q hq h => Payload.eq_of_toMembers_eq hq hplace h⟩
  · rintro b rfl
    exact address_of_calledAddress htarget
  · intro f hf
    have hkind : f.entry.kind = .function := by
      rw [hf] at hdeclared
      exact hdeclared
    rw [hf] at hcallee
    have hselector : f.entry.selector = .ok start := by
      rw [Invocation.start, hf] at hstart
      exact hstart
    refine ⟨start, encoded, Entry.length_selector hselector, ?_, rfl, ?_, ?_⟩
    · rw [arguments, hf] at hencoded
      exact hencoded
    · intro rows hrows shown
      exact Binding.mem_signatures_iff (Binding.isIndexed_of_ofValue hbinding) hrows
        (Binding.mem_of_callee hcallee) hselector shown
    · intro name hname
      rw [encode_eq hf hname hkind, hstart, hencoded]
      rfl
  · intro entry hentry
    have hcode : i.binding.bytecodeValue.codeBytes = .ok start := by
      rw [Invocation.start, hentry] at hstart
      exact hstart
    rw [arguments, hentry] at hencoded
    refine ⟨start, encoded, hcode, ?_, ?_, ?_, rfl⟩
    · intro given hgiven
      rw [Binding.codeBytes_bytecodeValue hbinding hgiven] at hcode
      exact (Except.ok.inj hcode).symm
    · rintro rfl
      have hcount := hchecked.count
      rw [hentry] at hcount
      cases hencoded
      exact ⟨List.eq_nil_of_length_eq_zero hcount, rfl⟩
    · rintro e rfl
      exact hencoded

/-- Arguments that the offline encoder does not encode are not sent. -/
theorem request_ne_ok_of_encode {f : BoundFunction} (hf : i.callee = .function f) {n : Text}
    (hname : i.binding.function n = .ok f) {e : Error} (h : i.binding.encode n i.args = .error e)
    (sent : Rpc.CallKind × Payload) : i.request ≠ .ok sent := by
  intro hrequest
  obtain ⟨selector, encoded, -, -, -, -, hencode⟩ :=
    (isAsked_of_request hbinding hcallee hrequest).function f hf
  rw [hencode n hname] at h
  cases h

end Asked

/-- **What is sent is exactly what was asked, and can be read back.**  However the signals to a call come,
every payload that it sends is from the caller to the address that is called, or to none for a
constructor.  For a function it holds the listed selector and the encoded arguments, which is what the
offline encoder makes, for a constructor the bytecode and the encoded arguments.  It can be recovered
from the members of the request, and what the offline encoder refuses is not sent.  The binding can be
listed unless a function has lone surrogates in its signature. -/
theorem sends_as_asked {abi address bytecode account : Value} {config : Config} {objectReturn : Bool}
    {i : Invocation} {name : Option Text}
    (hbinding : Binding.ofValue abi config address bytecode account objectReturn = .ok i.binding)
    (hcallee : i.binding.callee name = .ok i.callee) (stage : Stage) (signals : List Signal) :
    (∀ sent ∈ (i.run stage signals).2, i.IsAsked bytecode sent.2) ∧
    (∀ f n e, i.callee = .function f → i.binding.function n = .ok f →
      i.binding.encode n i.args = .error e → (i.run stage signals).2 = []) ∧
    ((∃ rows, i.binding.signatures = .ok rows) ↔
      ∀ f ∈ i.binding.functions, f.signature.isScalar = true) := by
  refine ⟨?_, ?_, Binding.exists_signatures_iff (Binding.isIndexed_of_ofValue hbinding)⟩
  · intro sent hsent
    exact isAsked_of_request hbinding hcallee (request_of_mem_run hsent)
  · intro f n e hf hname hencode
    rw [List.eq_nil_iff_forall_not_mem]
    intro sent hsent
    exact request_ne_ok_of_encode hbinding hcallee hf hname hencode sent (request_of_mem_run hsent)

/-- The call of the function is sent as it was asked for. With an argument that the function does not
take, nothing is sent. -/
theorem sends_as_asked_door :
    (∃ sent, (doorCall.run .scheduled [.run]).2 = [sent] ∧ doorCall.IsAsked .none sent.2) ∧
    (Invocation.run { doorCall with args := [.none] } .scheduled [.run]).2 = [] := by
  have hbinding : Binding.ofValue doorAbi .standard (.text (List.replicate 40 (.char '0'))) .none .none
      false = .ok doorCall.binding := rfl
  have hcallee : doorCall.binding.callee (some "isOpen") = .ok doorCall.callee := rfl
  constructor
  · obtain ⟨hasked, -⟩ := sends_as_asked hbinding hcallee .scheduled [.run]
    exact ⟨_, rfl, hasked _ List.mem_cons_self⟩
  · obtain ⟨-, hrefused, -⟩ := @sends_as_asked _ _ _ _ _ _ { doorCall with args := [.none] } _ hbinding
      hcallee .scheduled [.run]
    exact hrefused doorFunction "isOpen" _ rfl rfl rfl

end Invocation

end LedgerAbi
