/-
A call is checked in full and then sent at most once.

* `Invocation.Rejection` — the reasons for not sending a call, one for each check, in the
  order in which the checks are made;
* `Invocation.request_eq_error_iff` — a call has no request just when it is rejected;
* `Invocation.run` — a call over the signals that reach it;
* `dispatches_once` — a call that is rejected sends nothing and fails with the reason, any
  other sends one request and takes its outcome from the first answer.

Design notes: what a function and what a constructor puts before its arguments is one
stage, `Invocation.start`, so that the checks are a single sequence for both.  This needs
that a callee is what its entry is declared as, which holds of every callee of a binding
(`Binding.isDeclared_of_callee`).
-/
import LedgerAbi.Call.Invocation
import LedgerAbi.Proofs.Outcome

namespace LedgerAbi

/-! ### Callees of a binding -/

/-- A callee is a function or a constructor as its entry says; a constructor may lack an entry. -/
def Callee.IsDeclared : Callee → Prop
  | function f => f.entry.kind = .function
  | constructor entry => ∀ e, entry = some e → e.kind = .constructor

theorem isConstructor_of_isDeclared {c : Callee} (h : c.IsDeclared) {e : Entry}
    (he : c.entry? = some e) : e.isConstructor = c.isConstructor := by
  cases c with
  | function f =>
    cases he
    rw [Entry.isConstructor, show f.entry.kind = .function from h]
    rfl
  | constructor entry =>
    rw [Entry.isConstructor, h e he]
    rfl

/-- All functions of a binding are declared as functions, and its constructor as one. -/
structure Binding.IsSorted (b : Binding) : Prop where
  functions : ∀ f ∈ b.functions, f.entry.kind = .function
  constructor : ∀ e, b.constructor = some e → e.kind = .constructor

theorem mem_of_mem_putBound {α : Type} {signature : α → Text} {item x : α} {items : List α}
    (h : x ∈ putBound signature item items) : x = item ∨ x ∈ items := by
  induction items with
  | nil => exact Or.inl (List.mem_singleton.mp h)
  | cons other rest ih =>
    rw [putBound] at h
    split at h
    · rcases List.mem_cons.mp h with rfl | h
      · exact Or.inl rfl
      · exact Or.inr (List.mem_cons_of_mem other h)
    · rcases List.mem_cons.mp h with rfl | h
      · exact Or.inr List.mem_cons_self
      · exact (ih h).imp_right (List.mem_cons_of_mem other)

namespace Binding

/-- What holds of a binding and is kept with each entry that is added holds when all are added. -/
theorem addEntries_induction {P : Binding → Prop}
    (function : ∀ b e f, e.kind = .function → BoundFunction.ofEntry e = .ok f → P b →
      P { b with functions := putBound BoundFunction.signature f b.functions })
    (event : ∀ b e event, e.kind = .event → BoundEvent.ofEntry e = .ok event → P b →
      P { b with events := putBound BoundEvent.signature event b.events })
    (constructor : ∀ b e, e.kind = .constructor → P b → P { b with constructor := some e })
    {b c : Binding} {entries : List Entry} (hb : P b) (h : b.addEntries entries = .ok c) : P c := by
  induction entries generalizing b with
  | nil =>
    cases h
    exact hb
  | cons e rest ih =>
    rw [Binding.addEntries] at h
    split at h
    · next hkind =>
      obtain ⟨f, hf, h⟩ := Except.bind_eq_ok_iff.mp h
      exact ih (function b e f hkind hf hb) h
    · next hkind =>
      obtain ⟨found, hfound, h⟩ := Except.bind_eq_ok_iff.mp h
      exact ih (event b e found hkind hfound hb) h
    · next hkind => exact ih (constructor b e hkind hb) h

theorem IsSorted.addEntries {b c : Binding} {entries : List Entry} (hb : b.IsSorted)
    (h : b.addEntries entries = .ok c) : c.IsSorted := by
  refine addEntries_induction ?_ ?_ ?_ hb h
  · intro b e f hkind hf hb
    obtain ⟨signature, -, hf⟩ := Except.bind_eq_ok_iff.mp hf
    cases hf
    refine ⟨fun g hg => ?_, hb.constructor⟩
    rcases mem_of_mem_putBound hg with rfl | hg
    · exact hkind
    · exact hb.functions g hg
  · intro b e event _ _ hb
    exact ⟨hb.functions, hb.constructor⟩
  · intro b e hkind hb
    refine ⟨hb.functions, fun e' he => ?_⟩
    cases he
    exact hkind

/-- A binding is read in parts: the values that come with the document, then its entries. -/
theorem exists_entries_of_ofValue {abi : Value} {config : Config} {address bytecode account : Value}
    {objectReturn : Bool} {b : Binding}
    (h : ofValue abi config address bytecode account objectReturn = .ok b) :
    ∃ a code caller entries, optionalAddress address = .ok a ∧ optionalBytecode bytecode = .ok code ∧
      optionalAddress account = .ok caller ∧ Entry.listOfValue abi = .ok entries ∧
      Binding.addEntries ⟨abi, config, a, code, caller, objectReturn, [], [], none⟩ entries = .ok b := by
  obtain ⟨a, ha, h⟩ := Except.bind_eq_ok_iff.mp h
  obtain ⟨code, hcode, h⟩ := Except.bind_eq_ok_iff.mp h
  obtain ⟨caller, hcaller, h⟩ := Except.bind_eq_ok_iff.mp h
  obtain ⟨entries, hentries, h⟩ := Except.bind_eq_ok_iff.mp h
  exact ⟨a, code, caller, entries, ha, hcode, hcaller, hentries, h⟩

theorem isSorted_of_ofValue {abi : Value} {config : Config} {address bytecode account : Value}
    {objectReturn : Bool} {b : Binding}
    (h : ofValue abi config address bytecode account objectReturn = .ok b) : b.IsSorted := by
  obtain ⟨_, _, _, entries, -, -, -, -, h⟩ := exists_entries_of_ofValue h
  refine IsSorted.addEntries ⟨fun f hf => ?_, fun e he => ?_⟩ h
  · cases hf
  · cases he

theorem mem_of_find {α : Type} {signature : α → Text} {kind : EntryKind} {items : List α}
    {name : Text} {item : α} (h : find signature kind items name = .ok item) : item ∈ items := by
  unfold find at h
  split at h
  · next found hfound =>
    cases h
    exact List.mem_of_find?_eq_some hfound
  · split at h
    · cases h
    · next _ found hfound =>
      cases h
      have hmem : item ∈ items.filter fun item => displayName (signature item) = name := by
        rw [hfound]
        exact List.mem_singleton_self item
      exact List.mem_of_mem_filter hmem
    · cases h

/-- Every callee of a binding is what its entry says. -/
theorem isDeclared_of_callee {b : Binding} (hb : b.IsSorted) {name : Option Text} {callee : Callee}
    (h : b.callee name = .ok callee) : callee.IsDeclared := by
  cases name with
  | none =>
    cases h
    exact hb.constructor
  | some name =>
    cases hf : b.function? name with
    | error cause =>
      simp only [Binding.callee, Binding.function, hf, Except.mapError, Except.map] at h
      cases h
    | ok f =>
      simp only [Binding.callee, Binding.function, hf, Except.mapError, Except.map] at h
      cases h
      exact hb.functions f (mem_of_find hf)

end Binding

namespace Invocation

/-! ### The checks -/

/-- The value that the account of the call is read from. -/
def caller (i : Invocation) : Value :=
  (i.binding.accountValue.truthy?).getD (.text i.binding.config.defaultAccount)

/-- The bytes before the encoded arguments: the selector of a function, the bytecode of a contract. -/
def start (i : Invocation) : Except Error Bytes :=
  match i.callee with
  | .function f => f.entry.selector
  | .constructor _ => ((i.binding.bytecodeValue.truthy?).getD (.bytes [])).hexBytes

/-- The encoded arguments. A constructor that is not declared takes none. -/
def arguments (i : Invocation) : Except Error Bytes :=
  match i.callee.entry? with
  | some e => encodeValues e.inputTypes i.args
  | none => .ok []

/-- The address that the payload names: none for a constructor, whatever address is given. -/
def calledAddress (i : Invocation) : Except Error (Option Bytes) :=
  if i.callee.isConstructor then .ok none
  else (Address.ofValue i.target).map fun a => some a.bytes

/-- A function has an address to be called at. -/
def HasTarget (i : Invocation) : Prop :=
  i.callee.isConstructor = false → i.target.isTruthy = true

/-- The first two checks: there is an address, and there are as many arguments as inputs. -/
structure IsChecked (i : Invocation) : Prop where
  target : i.HasTarget
  count : i.args.length = i.callee.inputCount

/-- The checks before the call data: both addresses can be read as well. -/
structure IsAddressed (i : Invocation) : Prop extends i.IsChecked where
  called : ∃ target, i.calledAddress = .ok target
  caller : ∃ a, Address.ofValue i.caller = .ok a

/-- Why a call is not sent. Each reason counts only if the checks before it are passed. -/
inductive Rejection (i : Invocation) : Error → Prop
  | missingAddress (htarget : ¬ i.HasTarget) :
      Rejection i (.missingAddress .call (i.callee.signature?.getD []))
  | arity (htarget : i.HasTarget) (hcount : i.args.length ≠ i.callee.inputCount) :
      Rejection i (.arity (.arguments i.callee.signature? i.callee.inputCount i.args.length))
  | target {e : Error} (hchecked : i.IsChecked) (hfunction : i.callee.isConstructor = false)
      (h : Address.ofValue i.target = .error e) : Rejection i e
  | caller {e : Error} (hchecked : i.IsChecked) (hcalled : ∃ target, i.calledAddress = .ok target)
      (h : Address.ofValue i.caller = .error e) : Rejection i e
  | start {e : Error} (haddressed : i.IsAddressed) (h : i.start = .error e) : Rejection i e
  | arguments {e : Error} (haddressed : i.IsAddressed) (hstart : ∃ b, i.start = .ok b)
      (h : i.arguments = .error e) : Rejection i e
  /-- An invalid address, which cannot even be written out. A function has read its address before; a
  constructor leaves the address that it is given unread. No text is such an address. -/
  | writing (haddressed : i.IsAddressed) (hstart : ∃ b, i.start = .ok b)
      (harguments : ∃ b, i.arguments = .ok b) (h : i.target.isOverlong = true) :
      Rejection i (.fault .overlongInteger)

theorem validate_eq_ok_iff {i : Invocation} : i.validate = .ok () ↔ i.IsChecked := by
  have htarget : (!i.target.isTruthy && !i.callee.isConstructor) = false ↔ i.HasTarget := by
    rw [HasTarget]
    cases i.target.isTruthy <;> cases i.callee.isConstructor <;> simp
  unfold validate
  split
  · next h =>
    refine iff_of_false (fun h' => by cases h') fun hchecked => ?_
    exact absurd (h.symm.trans (htarget.mpr hchecked.target)) (by decide)
  · next h =>
    split
    · next hcount => exact iff_of_false (fun h' => by cases h') fun hchecked => hcount hchecked.count
    · next hcount =>
      exact iff_of_true rfl ⟨htarget.mp (by simpa using h), Decidable.not_not.mp hcount⟩

theorem validate_eq_error_iff {i : Invocation} {e : Error} :
    i.validate = .error e ↔
      (¬ i.HasTarget ∧ e = .missingAddress .call (i.callee.signature?.getD [])) ∨
      (i.HasTarget ∧ i.args.length ≠ i.callee.inputCount ∧
        e = .arity (.arguments i.callee.signature? i.callee.inputCount i.args.length)) := by
  have htarget : (!i.target.isTruthy && !i.callee.isConstructor) = true ↔ ¬ i.HasTarget := by
    rw [HasTarget]
    cases i.target.isTruthy <;> cases i.callee.isConstructor <;> simp
  unfold validate
  split
  · next h =>
    have hnot := htarget.mp h
    simp [hnot, eq_comm]
  · next h =>
    have hhas : i.HasTarget := not_not.mp (mt htarget.mpr h)
    split
    · next hcount => simp [hhas, hcount, eq_comm]
    · next hcount => simp [hhas, hcount]

section Stages

variable {i : Invocation} (hdeclared : i.callee.IsDeclared) (hchecked : i.IsChecked)
include hdeclared hchecked

theorem buildTarget_eq : Payload.buildTarget i.callee.entry? i.target = i.calledAddress := by
  cases hentry : i.callee.entry? with
  | none =>
    have hconstructor : i.callee.isConstructor = true := by
      cases hcallee : i.callee with
      | function f => rw [hcallee] at hentry; cases hentry
      | constructor entry => rfl
    rw [Payload.buildTarget, calledAddress, hconstructor, if_pos rfl]
  | some e =>
    simp only [Payload.buildTarget, calledAddress, isConstructor_of_isDeclared hdeclared hentry]
    cases hkind : i.callee.isConstructor with
    | true => rfl
    | false =>
      simp only [hchecked.target hkind, Bool.not_true, Bool.false_eq_true, if_false]
      cases Address.ofValue i.target <;> rfl

theorem callData_eq :
    callData i.callee.entry? i.args i.binding.bytecodeValue = (do
      let start ← i.start
      let arguments ← i.arguments
      .ok (start ++ arguments)) := by
  cases hcallee : i.callee with
  | function f =>
    rw [hcallee] at hdeclared
    have hkind : f.entry.isConstructor = false := isConstructor_of_isDeclared hdeclared rfl
    simp only [callData, start, arguments, hcallee, Callee.entry?, hkind, Bool.false_eq_true, if_false]
  | constructor entry =>
    rw [hcallee] at hdeclared
    cases entry with
    | none =>
      have hargs : i.args = [] := by
        have hcount := hchecked.count
        rw [hcallee] at hcount
        exact List.eq_nil_of_length_eq_zero hcount
      simp only [callData, start, arguments, hcallee, Callee.entry?, hargs, List.isEmpty_nil, if_true]
      cases Value.hexBytes ((i.binding.bytecodeValue.truthy?).getD (.bytes [])) with
      | error e => rfl
      | ok code => exact congrArg Except.ok (List.append_nil code).symm
    | some e =>
      have hkind : e.isConstructor = true := isConstructor_of_isDeclared hdeclared rfl
      simp only [callData, start, arguments, hcallee, Callee.entry?, hkind, if_true]

/-- What a call that passed the first checks sends: three more stages fill in the payload. -/
theorem request_eq :
    i.request = (do
      let target ← i.calledAddress
      let caller ← Address.ofValue i.caller
      let data ← (do
        let start ← i.start
        let arguments ← i.arguments
        .ok (start ++ arguments))
      if i.target.isOverlong then .error (.fault .overlongInteger)
      else .ok (i.kind, {
        account := caller.bytes, amount := i.binding.config.amount, target,
        gasLimit := i.binding.config.gasLimit, fee := i.binding.config.fee, data })) := by
  have htarget := buildTarget_eq hdeclared hchecked
  have hdata := callData_eq hdeclared hchecked
  have hvalid := validate_eq_ok_iff.mpr hchecked
  rw [← htarget, ← hdata, request, hvalid]
  show Payload.build i.callee.entry? i.args i.binding.config i.binding.accountValue i.target
    i.binding.bytecodeValue >>= _ = _
  simp only [Payload.build, bind_assoc]
  rfl

end Stages

theorem calledAddress_eq_error_iff {i : Invocation} {e : Error} :
    i.calledAddress = .error e ↔
      i.callee.isConstructor = false ∧ Address.ofValue i.target = .error e := by
  rw [calledAddress]
  cases i.callee.isConstructor with
  | true => simp
  | false => cases Address.ofValue i.target <;> simp [Except.map]

/-- **A call has no request just when it is rejected**, and then the reason is its failure. -/
theorem request_eq_error_iff {i : Invocation} (hdeclared : i.callee.IsDeclared) {e : Error} :
    i.request = .error e ↔ i.Rejection e := by
  constructor
  · intro h
    by_cases hchecked : i.IsChecked
    · rw [request_eq hdeclared hchecked] at h
      -- the failure is that of the first stage that fails
      rcases Except.bind_eq_error_iff.mp h with h | ⟨target, htarget, h⟩
      · obtain ⟨hfunction, h⟩ := calledAddress_eq_error_iff.mp h
        exact .target hchecked hfunction h
      rcases Except.bind_eq_error_iff.mp h with h | ⟨caller, hcaller, h⟩
      · exact .caller hchecked ⟨target, htarget⟩ h
      have haddressed : i.IsAddressed := ⟨hchecked, ⟨target, htarget⟩, ⟨caller, hcaller⟩⟩
      rcases Except.bind_eq_error_iff.mp h with h | ⟨data, hdata, h⟩
      · rcases Except.bind_eq_error_iff.mp h with h | ⟨start, hstart, h⟩
        · exact .start haddressed h
        rcases Except.bind_eq_error_iff.mp h with h | ⟨arguments, -, h⟩
        · exact .arguments haddressed ⟨start, hstart⟩ h
        · cases h
      · obtain ⟨start, hstart, hdata⟩ := Except.bind_eq_ok_iff.mp hdata
        obtain ⟨arguments, harguments, -⟩ := Except.bind_eq_ok_iff.mp hdata
        split at h
        · next hlong =>
          cases h
          exact .writing haddressed ⟨start, hstart⟩ ⟨arguments, harguments⟩ hlong
        · cases h
    · rcases Except.bind_eq_error_iff.mp h with h | ⟨u, hvalid, -⟩
      · rcases validate_eq_error_iff.mp h with ⟨htarget, rfl⟩ | ⟨htarget, hcount, rfl⟩
        · exact .missingAddress htarget
        · exact .arity htarget hcount
      · exact absurd (validate_eq_ok_iff.mp hvalid) hchecked
  · intro h
    cases h with
    | missingAddress htarget =>
      rw [request, validate_eq_error_iff.mpr (Or.inl ⟨htarget, rfl⟩)]
      rfl
    | arity htarget hcount =>
      rw [request, validate_eq_error_iff.mpr (Or.inr ⟨htarget, hcount, rfl⟩)]
      rfl
    | target hchecked hfunction h =>
      rw [request_eq hdeclared hchecked, calledAddress_eq_error_iff.mpr ⟨hfunction, h⟩]
      rfl
    | caller hchecked hcalled h =>
      obtain ⟨target, htarget⟩ := hcalled
      rw [request_eq hdeclared hchecked, htarget, h]
      rfl
    | start haddressed h =>
      obtain ⟨hchecked, ⟨target, htarget⟩, ⟨caller, hcaller⟩⟩ := haddressed
      rw [request_eq hdeclared hchecked, htarget, hcaller, h]
      rfl
    | arguments haddressed hstart h =>
      obtain ⟨hchecked, ⟨target, htarget⟩, ⟨caller, hcaller⟩⟩ := haddressed
      obtain ⟨start, hstart⟩ := hstart
      rw [request_eq hdeclared hchecked, htarget, hcaller, hstart, h]
      rfl
    | writing haddressed hstart harguments h =>
      obtain ⟨hchecked, ⟨target, htarget⟩, ⟨caller, hcaller⟩⟩ := haddressed
      obtain ⟨start, hstart⟩ := hstart
      obtain ⟨arguments, harguments⟩ := harguments
      rw [request_eq hdeclared hchecked, htarget, hcaller, hstart, harguments]
      exact if_pos h

theorem kind_of_request {i : Invocation} {sent : Rpc.CallKind × Payload} (h : i.request = .ok sent) :
    sent.1 = i.kind := by
  obtain ⟨_, -, h⟩ := Except.bind_eq_ok_iff.mp h
  obtain ⟨payload, -, h⟩ := Except.bind_eq_ok_iff.mp h
  split at h
  · cases h
  · cases h
    rfl

/-! ### Runs -/

/-- The stage of a call after some signals, and the requests that it sent. -/
def run (i : Invocation) : Stage → List Signal → Stage × List (Rpc.CallKind × Payload)
  | stage, [] => (stage, [])
  | stage, signal :: rest =>
    let (next, sent) := i.step stage signal
    let (last, later) := i.run next rest
    (last, sent.toList ++ later)

theorem run_cons (i : Invocation) (stage : Stage) (signal : Signal) (rest : List Signal) :
    i.run stage (signal :: rest) =
      ((i.run (i.step stage signal).1 rest).1,
        (i.step stage signal).2.toList ++ (i.run (i.step stage signal).1 rest).2) := rfl

/-- The first answer among some signals. -/
def firstAnswer? : List Signal → Option (Except Error RawResult)
  | [] => none
  | .answer a :: _ => some a
  | _ :: rest => firstAnswer? rest

theorem step_finished (i : Invocation) (outcome : Except Error CallResult) (signal : Signal) :
    i.step (.finished outcome) signal = (.finished outcome, none) := by
  cases signal <;> rfl

/-- A finished call is finished for good and sends nothing more. -/
theorem run_finished (i : Invocation) (outcome : Except Error CallResult) (signals : List Signal) :
    i.run (.finished outcome) signals = (.finished outcome, []) := by
  induction signals with
  | nil => rfl
  | cons signal rest ih =>
    rw [run_cons, step_finished, ih]
    rfl

/-- A call that has been sent takes the first answer and sends nothing more. -/
theorem run_waiting (i : Invocation) {signals : List Signal} (hcancel : .cancel ∉ signals) :
    i.run .waiting signals =
      ((firstAnswer? signals).elim .waiting fun a => .finished (i.outcome a), []) := by
  induction signals with
  | nil => rfl
  | cons signal rest ih =>
    have hrest : Signal.cancel ∉ rest := fun h => hcancel (List.mem_cons_of_mem signal h)
    cases signal with
    | run =>
      rw [run_cons, show i.step .waiting .run = (.waiting, none) from rfl, ih hrest]
      rfl
    | answer a =>
      rw [run_cons, show i.step .waiting (.answer a) = (.finished (i.outcome a), none) from rfl,
        run_finished]
      rfl
    | cancel => exact absurd List.mem_cons_self hcancel

/-- A call that has not begun is sent, or fails, when it begins; answers before that concern nobody. -/
theorem run_scheduled (i : Invocation) {early later : List Signal} (hearly : .run ∉ early)
    (hcancel : .cancel ∉ early ++ .run :: later) :
    i.run .scheduled (early ++ .run :: later) =
      match i.request with
      | .error e => (.finished (.error e), [])
      | .ok sent =>
        ((firstAnswer? later).elim .waiting fun a => .finished (i.outcome a), [sent]) := by
  induction early with
  | nil =>
    rw [List.nil_append] at hcancel ⊢
    have hlater : Signal.cancel ∉ later := fun h => hcancel (List.mem_cons_of_mem .run h)
    rw [run_cons]
    cases hrequest : i.request with
    | error e =>
      rw [show i.step .scheduled .run = (.finished (.error e), none) by simp only [step, hrequest],
        run_finished]
      rfl
    | ok sent =>
      rw [show i.step .scheduled .run = (.waiting, some sent) by simp only [step, hrequest],
        run_waiting i hlater]
      rfl
  | cons signal rest ih =>
    have hrest : Signal.run ∉ rest := fun h => hearly (List.mem_cons_of_mem signal h)
    have hcancelRest : Signal.cancel ∉ rest ++ .run :: later :=
      fun h => hcancel (List.mem_cons_of_mem signal h)
    cases signal with
    | run => exact absurd List.mem_cons_self hearly
    | answer a =>
      rw [List.cons_append, run_cons, show i.step .scheduled (.answer a) = (.scheduled, none) from rfl,
        ih hrest hcancelRest]
      rfl
    | cancel => exact absurd List.mem_cons_self hcancel

/-- A call is simulated: its callee is a function, and the caller asks for it or leaves it to a function
that only reads. -/
def IsSimulated (i : Invocation) : Prop :=
  i.callee.isConstructor = false ∧ (i.simulate = some true ∨ i.simulate = none ∧
    ∃ e, i.callee.entry? = some e ∧ (e.mutability = .view ∨ e.mutability = .pure))

theorem isReadOnly_iff (c : Callee) :
    c.isReadOnly = true ↔ ∃ e, c.entry? = some e ∧ (e.mutability = .view ∨ e.mutability = .pure) := by
  rw [Callee.isReadOnly]
  cases c.entry? with
  | none => simp
  | some e =>
    simp only [Entry.isReadOnly, Option.some.injEq, exists_eq_left']
    cases e.mutability <;> decide

theorem kind_eq_simulate_iff (i : Invocation) : i.kind = .simulate ↔ i.IsSimulated := by
  rw [kind, IsSimulated, ← isReadOnly_iff]
  cases i.callee.isConstructor <;> cases i.simulate with
  | none => cases i.callee.isReadOnly <;> simp
  | some b => cases b <;> simp

/-- **A call is checked, then sent at most once.** However the signals to a call come, short of giving it
up, it sends nothing just when it is rejected, and then it fails with the reason. Otherwise it sends one
request, simulated or submitted as it should be, and the first answer settles it: a failure of the
transport is the failure of the call, and a result is processed. -/
theorem dispatches_once {abi address bytecode account : Value} {config : Config} {objectReturn : Bool}
    {i : Invocation} {name : Option Text}
    (hbinding : Binding.ofValue abi config address bytecode account objectReturn = .ok i.binding)
    (hcallee : i.binding.callee name = .ok i.callee) {early later : List Signal}
    (hearly : .run ∉ early) (hcancel : .cancel ∉ early ++ .run :: later) :
    let stage := (i.run .scheduled (early ++ .run :: later)).1
    let sent := (i.run .scheduled (early ++ .run :: later)).2
    sent.length ≤ 1 ∧
      (sent = [] ↔ ∃ e, i.Rejection e) ∧
      (∀ e, i.Rejection e → stage = .finished (.error e)) ∧
      (∀ request ∈ sent, (request.1 = .simulate ↔ i.IsSimulated) ∧
        (request.1 = .submit ↔ ¬ i.IsSimulated)) ∧
      (sent ≠ [] → stage = match firstAnswer? later with
        | none => .waiting
        | some (.error e) => .finished (.error e)
        | some (.ok r) => .finished (i.callee.processResult i.binding.objectReturn r)) := by
  have hdeclared := Binding.isDeclared_of_callee (Binding.isSorted_of_ofValue hbinding) hcallee
  intro stage sent
  have hrun := i.run_scheduled hearly hcancel
  cases hrequest : i.request with
  | error e =>
    have hrejection := (request_eq_error_iff hdeclared).mp hrequest
    rw [hrequest] at hrun
    have hstage : stage = .finished (.error e) := congrArg Prod.fst hrun
    have hsent : sent = [] := congrArg Prod.snd hrun
    refine ⟨by simp [hsent], iff_of_true hsent ⟨e, hrejection⟩, fun e' he' => ?_, by simp [hsent],
      fun h => absurd hsent h⟩
    -- there is one reason only, the failure of the request
    have heq := hrequest.symm.trans ((request_eq_error_iff hdeclared).mpr he')
    rw [hstage, Except.error.inj heq]
  | ok request =>
    have hnot : ¬ ∃ e, i.Rejection e := by
      rintro ⟨e, he⟩
      cases hrequest.symm.trans ((request_eq_error_iff hdeclared).mpr he)
    rw [hrequest] at hrun
    have hstage : stage = (firstAnswer? later).elim .waiting fun a => .finished (i.outcome a) :=
      congrArg Prod.fst hrun
    have hsent : sent = [request] := congrArg Prod.snd hrun
    refine ⟨by simp [hsent], iff_of_false (by simp [hsent]) hnot, fun e he => absurd ⟨e, he⟩ hnot, ?_,
      fun _ => ?_⟩
    · intro other hother
      rw [hsent, List.mem_singleton] at hother
      subst hother
      have hkind := kind_of_request hrequest
      rw [← kind_eq_simulate_iff, hkind]
      cases i.kind <;> decide
    · rw [hstage]
      rcases firstAnswer? later with _ | (e | r) <;> rfl

/-- The document of a contract with one function, which only reads. -/
def doorAbi : Value := .list [.dict [("type", .text "function"), ("name", .text "isOpen"),
  ("stateMutability", .text "view"), ("outputs", .list [.dict [("type", .text "bool")]])]]

/-- The function of the document. -/
def doorFunction : BoundFunction where
  signature := "isOpen()"
  entry := ⟨.function, .text "isOpen", [], [⟨.text [], .bool, false⟩], .view, false, by decide⟩

/-- A call of the function that leaves open how it is put to the ledger. -/
def doorCall : Invocation where
  binding := {
    abi := doorAbi, config := .standard, address := some .zero, bytecode := none, account := none,
    objectReturn := false, functions := [doorFunction], events := [], constructor := none }
  callee := .function doorFunction
  args := []
  simulate := none
  address := .none

/-- One simulated request, and the outcome from its answer. -/
theorem dispatches_once_view :
    ∃ request, (doorCall.run .scheduled
        ([] ++ [.run, .answer (.ok ⟨List.replicate 31 0 ++ [1], none, none⟩)])).2 = [request] ∧
      request.1 = .simulate ∧
      (doorCall.run .scheduled
        ([] ++ [.run, .answer (.ok ⟨List.replicate 31 0 ++ [1], none, none⟩)])).1 =
          .finished (.ok (.value (.bool true))) := by
  have hbinding : Binding.ofValue doorAbi .standard (.text (List.replicate 40 (.char '0'))) .none .none
      false = .ok doorCall.binding := rfl
  have hcallee : doorCall.binding.callee (some "isOpen") = .ok doorCall.callee := rfl
  obtain ⟨-, -, -, hkind, hstage⟩ := @dispatches_once _ _ _ _ _ _ doorCall _ hbinding hcallee []
    [.answer (.ok ⟨List.replicate 31 0 ++ [1], none, none⟩)] (by simp) (by simp)
  refine ⟨_, rfl, (hkind _ List.mem_cons_self).1.mpr ?_, (hstage (by nofun)).trans rfl⟩
  exact ⟨rfl, Or.inr ⟨rfl, _, rfl, Or.inl rfl⟩⟩

end Invocation

end LedgerAbi
