/-
A binding at another address calls as the old binding does at that address.

* `Address.IsGivenAs` — the values that give an address: its bytes, or its digits in any
  letter case, behind a mark or not;
* `Binding.atAddress_eq` — moving a binding changes its address and at most its bytecode;
* `Binding.IsMovedTo` — one binding answers to the same names as another and calls what it
  calls, at an address;
* `Session.Reports` — the ledger reports the address of a new contract;
* `rebinding_agrees` — a binding that is moved, or that a creation gives, is the old one
  moved to the address.

Design notes: moving a binding reads its whole ABI again, with the bytecode as the old
binding kept it.  `Binding.relocate` says in advance what comes out.  The bytecode is not
always the same as before, because a mark may be taken off twice; but no function sends it.
-/
import LedgerAbi.Proofs.Call.Dispatch
import LedgerAbi.Proofs.Call.Reply
import LedgerAbi.Proofs.Codec.Inhabitants

namespace LedgerAbi

/-! ### Addresses as they are given -/

namespace Address

/-- The values that give an address: its twenty bytes, or its forty digits. -/
def IsGivenAs (a : Address) (v : Value) : Prop :=
  v = .bytes a.bytes ∨ ∃ t, v = .text t ∧ Hex.Spells t a.bytes

variable {a : Address} {v : Value}

theorem IsGivenAs.ofValue_eq (h : a.IsGivenAs v) : ofValue v = .ok a := by
  rcases h with rfl | ⟨t, rfl, ht⟩
  · exact ofValue_eq_ok_iff.mpr (Or.inl rfl)
  · exact ofValue_eq_ok_iff.mpr (Value.spellsAddress_text ht)

/-- No address is given as an empty value. -/
theorem isTruthy_of_ofValue (h : ofValue v = .ok a) : v.isTruthy = true := by
  rcases ofValue_eq_ok_iff.mp h with rfl | ⟨t, rfl, ht, -⟩
  · have hlength := a.length_eq
    cases hbytes : a.bytes with
    | nil =>
      rw [hbytes] at hlength
      cases hlength
    | cons b rest => rfl
  · cases t with
    | nil => cases ht
    | cons c rest => rfl

/-- An address can be written out as it was given. -/
theorem isOverlong_of_ofValue (h : ofValue v = .ok a) : v.isOverlong = false := by
  rcases ofValue_eq_ok_iff.mp h with rfl | ⟨t, rfl, -, -⟩
  · rfl
  · rfl

end Address

/-! ### Moving a binding -/

namespace Binding

/-- The binding with another address and other bytecode. -/
def relocate (b : Binding) (address : Option Address) (bytecode : Option Text) : Binding :=
  { b with address := address, bytecode := bytecode }

/-- What comes of adding entries depends on the functions, the events and the constructor that are there,
and nothing else of the binding changes. -/
theorem addEntries_congr {b c : Binding} {entries : List Entry} (h : b.addEntries entries = .ok c)
    {d : Binding} (hfunctions : d.functions = b.functions) (hevents : d.events = b.events)
    (hconstructor : d.constructor = b.constructor) :
    d.addEntries entries =
      .ok { d with functions := c.functions, events := c.events, constructor := c.constructor } := by
  induction entries generalizing b d with
  | nil =>
    cases h
    rw [addEntries, ← hfunctions, ← hevents, ← hconstructor]
  | cons e rest ih =>
    rw [addEntries] at h ⊢
    cases hkind : e.kind with
    | function =>
      simp only [hkind] at h ⊢
      obtain ⟨f, hf, h⟩ := Except.bind_eq_ok_iff.mp h
      rw [hf, hfunctions]
      exact ih h rfl hevents hconstructor
    | event =>
      simp only [hkind] at h ⊢
      obtain ⟨event, hevent, h⟩ := Except.bind_eq_ok_iff.mp h
      rw [hevent, hevents]
      exact ih h hfunctions rfl hconstructor
    | constructor =>
      simp only [hkind] at h ⊢
      exact ih h hfunctions hevents rfl

theorem optionalAddress_eq {v : Value} {a : Address} (h : Address.ofValue v = .ok a) :
    optionalAddress v = .ok (some a) := by
  rw [optionalAddress, if_pos (Address.isTruthy_of_ofValue h), h]
  rfl

theorem optionalAddress_accountValue (b : Binding) : optionalAddress b.accountValue = .ok b.account := by
  rw [accountValue]
  cases b.account with
  | none => rfl
  | some a => exact optionalAddress_eq (Address.ofValue_hex a)

theorem exists_optionalBytecode (b : Binding) :
    ∃ bytecode, optionalBytecode b.bytecodeValue = .ok bytecode := by
  rw [bytecodeValue]
  cases b.bytecode with
  | none => exact ⟨none, rfl⟩
  | some t =>
    by_cases ht : (Value.text t).isTruthy = true
    · exact ⟨some (Hex.normalize t), by rw [optionalBytecode, if_pos ht]; rfl⟩
    · exact ⟨none, by rw [optionalBytecode, if_neg ht]⟩

variable {abi address bytecode account : Value} {config : Config} {objectReturn : Bool} {b : Binding}

/-- The ABI of a binding can be read again, and nothing but address and bytecode changes. -/
theorem atAddress_eq (hb : ofValue abi config address bytecode account objectReturn = .ok b)
    {v : Value} {a : Address} (hv : Address.ofValue v = .ok a) :
    ∃ bytecode, b.atAddress v = .ok (b.relocate (some a) bytecode) := by
  obtain ⟨oldAddress, oldBytecode, oldAccount, entries, -, -, -, hentries, hb⟩ :=
    exists_entries_of_ofValue hb
  have habi : b.abi = abi :=
    congrArg Binding.abi (Except.ok.inj (hb.symm.trans (addEntries_congr hb rfl rfl rfl)))
  obtain ⟨code, hcode⟩ := exists_optionalBytecode b
  refine ⟨code, ?_⟩
  rw [atAddress, ofValue, optionalAddress_eq hv, hcode, optionalAddress_accountValue, habi, hentries]
  refine (addEntries_congr hb ?_ ?_ ?_).trans ?_
  · rfl
  · rfl
  · rfl
  · rw [← habi]
    rfl

/-- A binding cannot be moved to what is no address. -/
theorem exists_address_of_atAddress {v : Value} (hv : v.isTruthy = true) {c : Binding}
    (h : b.atAddress v = .ok c) : ∃ a, Address.ofValue v = .ok a := by
  obtain ⟨moved, hmoved, -⟩ := Except.bind_eq_ok_iff.mp h
  rw [optionalAddress, if_pos hv] at hmoved
  cases ha : Address.ofValue v with
  | error e =>
    rw [ha] at hmoved
    cases hmoved
  | ok a => exact ⟨a, rfl⟩

end Binding

/-! ### Calls -/

namespace Invocation

/-- Calls with the same request that make the same of an answer run alike. -/
theorem run_congr {i j : Invocation} (hrequest : i.request = j.request)
    (houtcome : ∀ answer, i.outcome answer = j.outcome answer) (stage : Stage)
    (signals : List Signal) : i.run stage signals = j.run stage signals := by
  have hstep (stage : Stage) (signal : Signal) : i.step stage signal = j.step stage signal := by
    simp only [step, hrequest, houtcome]
  induction signals generalizing stage with
  | nil => rfl
  | cons signal rest ih => rw [run_cons, run_cons, hstep, ih]

/-- A call sends nothing but its request, when it begins. -/
theorem request_of_mem_step {i : Invocation} {stage : Stage} {signal : Signal}
    {sent : Rpc.CallKind × Payload} (h : sent ∈ (i.step stage signal).2) : i.request = .ok sent := by
  cases stage with
  | scheduled =>
    cases signal with
    | run =>
      cases hrequest : i.request with
      | error e =>
        simp only [step, hrequest] at h
        cases h
      | ok request =>
        simp only [step, hrequest] at h
        cases h
        rfl
    | answer _ => cases h
    | cancel => cases h
  | waiting =>
    cases signal with
    | run => cases h
    | answer _ => cases h
    | cancel => cases h
  | finished outcome =>
    rw [step_finished] at h
    cases h

theorem request_of_mem_run {i : Invocation} {stage : Stage} {signals : List Signal}
    {sent : Rpc.CallKind × Payload} (h : sent ∈ (i.run stage signals).2) : i.request = .ok sent := by
  induction signals generalizing stage with
  | nil => cases h
  | cons signal rest ih =>
    rw [run_cons] at h
    rcases List.mem_append.mp h with h | h
    · exact request_of_mem_step (Option.mem_toList.mp h)
    · exact ih h

/-- The payload of a function holds nothing of its target but the address, and no bytecode. -/
theorem build_function {e : Entry} (he : e.kind = .function) {target : Value} {a : Address}
    (htarget : Address.ofValue target = .ok a) (args : List Value) (config : Config)
    (account bytecode : Value) :
    Payload.build (some e) args config account target bytecode = (do
      let caller ← Address.ofValue ((account.truthy?).getD (.text config.defaultAccount))
      let selector ← e.selector
      let encoded ← encodeValues e.inputTypes args
      .ok {
        account := caller.bytes, amount := config.amount, target := some a.bytes,
        gasLimit := config.gasLimit, fee := config.fee, data := selector ++ encoded }) := by
  have hconstructor : e.isConstructor = false := by
    rw [Entry.isConstructor, he]
    rfl
  have hbuild : Payload.buildTarget (some e) target = .ok (some a.bytes) := by
    simp only [Payload.buildTarget, hconstructor, Address.isTruthy_of_ofValue htarget, htarget,
      Bool.not_true, Bool.false_eq_true, if_false]
    rfl
  rw [Payload.build, hbuild]
  simp only [callData, hconstructor, Bool.false_eq_true, if_false, bind_assoc]
  rfl

variable {b c : Binding} {f : BoundFunction}

/-- A function sends nothing of a binding but its settings. -/
theorem request_eq_of_target (hf : f.entry.kind = .function) (hconfig : c.config = b.config)
    (haccount : c.account = b.account) {args : List Value} {simulate : Option Bool}
    {v w : Value} {a : Address}
    (hv : Address.ofValue (Invocation.mk c (.function f) args simulate v).target = .ok a)
    (hw : Address.ofValue (Invocation.mk b (.function f) args simulate w).target = .ok a) :
    (Invocation.mk c (.function f) args simulate v).request =
      (Invocation.mk b (.function f) args simulate w).request := by
  have hvalidate : (Invocation.mk c (.function f) args simulate v).validate =
      (Invocation.mk b (.function f) args simulate w).validate := by
    simp only [validate, Address.isTruthy_of_ofValue hv, Address.isTruthy_of_ofValue hw]
  rw [request, request, hvalidate]
  simp only [Callee.entry?, build_function hf hv, build_function hf hw, hconfig,
    Binding.accountValue, haccount, Address.isOverlong_of_ofValue hv, Address.isOverlong_of_ofValue hw]
  rfl

/-- The request of a function is addressed to its target. -/
theorem target_of_request (hf : f.entry.kind = .function) {args : List Value} {simulate : Option Bool}
    {v : Value} {a : Address}
    (hv : Address.ofValue (Invocation.mk b (.function f) args simulate v).target = .ok a)
    {sent : Rpc.CallKind × Payload}
    (h : (Invocation.mk b (.function f) args simulate v).request = .ok sent) :
    sent.2.target = some a.bytes := by
  obtain ⟨_, -, h⟩ := Except.bind_eq_ok_iff.mp h
  obtain ⟨payload, hpayload, h⟩ := Except.bind_eq_ok_iff.mp h
  rw [if_neg (ne_true_of_eq_false (Address.isOverlong_of_ofValue hv))] at h
  cases h
  rw [Callee.entry?, build_function hf hv] at hpayload
  obtain ⟨_, -, hpayload⟩ := Except.bind_eq_ok_iff.mp hpayload
  obtain ⟨_, -, hpayload⟩ := Except.bind_eq_ok_iff.mp hpayload
  obtain ⟨_, -, hpayload⟩ := Except.bind_eq_ok_iff.mp hpayload
  cases hpayload
  rfl

end Invocation

namespace Binding

/-- A binding is another one moved to an address: it finds the same functions, and a call of one of them
runs as the call on the other binding at the address, however that is given. -/
structure IsMovedTo (c b : Binding) (a : Address) : Prop where
  address : c.address = some a
  function (name : Text) : c.function name = b.function name
  run {name : Text} {f : BoundFunction} (hf : b.function name = .ok f) (args : List Value)
      (simulate : Option Bool) {v : Value} (hv : a.IsGivenAs v) (signals : List Invocation.Signal) :
    (Invocation.mk c (.function f) args simulate .none).run .scheduled signals =
      (Invocation.mk b (.function f) args simulate v).run .scheduled signals
  target {name : Text} {f : BoundFunction} (hf : b.function name = .ok f) (args : List Value)
      (simulate : Option Bool) (signals : List Invocation.Signal) :
    ∀ sent ∈ ((Invocation.mk c (.function f) args simulate .none).run .scheduled signals).2,
      sent.2.target = some a.bytes

theorem isMovedTo_relocate {b : Binding} (hb : b.IsSorted) (a : Address) (bytecode : Option Text) :
    (b.relocate (some a) bytecode).IsMovedTo b a := by
  have hkind {name : Text} {f : BoundFunction} (hf : b.function name = .ok f) :
      f.entry.kind = .function := by
    have hcallee : b.callee (some name) = .ok (.function f) := by
      rw [callee, hf]
      rfl
    exact isDeclared_of_callee hb hcallee
  have htarget (f : BoundFunction) (args : List Value) (simulate : Option Bool) :
      Address.ofValue
        (Invocation.mk (b.relocate (some a) bytecode) (.function f) args simulate .none).target = .ok a :=
    Address.ofValue_hex a
  have hconfig : (b.relocate (some a) bytecode).config = b.config := rfl
  have haccount : (b.relocate (some a) bytecode).account = b.account := rfl
  refine ⟨rfl, fun _ => rfl, ?_, ?_⟩
  · intro name f hf args simulate v hv signals
    have hgiven : Address.ofValue (Invocation.mk b (.function f) args simulate v).target = .ok a := by
      rw [Invocation.target, Value.truthy?, if_pos (Address.isTruthy_of_ofValue hv.ofValue_eq)]
      exact hv.ofValue_eq
    have hrequest :
        (Invocation.mk (b.relocate (some a) bytecode) (.function f) args simulate .none).request =
          (Invocation.mk b (.function f) args simulate v).request :=
      Invocation.request_eq_of_target (hkind hf) hconfig haccount (htarget f args simulate) hgiven
    exact Invocation.run_congr hrequest (fun _ => rfl) .scheduled signals
  · intro name f hf args simulate signals sent hsent
    exact Invocation.target_of_request (hkind hf) (htarget f args simulate)
      (Invocation.request_of_mem_run hsent)

end Binding

/-! ### Creating a contract -/

/-- A creation resolves to the address of the new contract, if the answer names one and no exception. -/
theorem Callee.processResult_constructor_iff {entry : Option Entry} {objectReturn : Bool}
    {r : RawResult} {result : CallResult} :
    (constructor entry).processResult objectReturn r = .ok result ↔
      r.exception = none ∧ ∃ bytes, bytes ≠ [] ∧ r.contractAddress = some bytes ∧
        result = .value (.text (Hex.ofBytes bytes)) := by
  rw [processResult]
  cases hexception : r.exception with
  | some e => simp
  | none =>
    cases hcontract : r.contractAddress with
    | none => simp
    | some bytes =>
      cases bytes with
      | nil => simp
      | cons x rest => simp [eq_comm]

theorem Address.eq_of_ofValue_hex {bytes : Bytes} {a : Address}
    (h : ofValue (.text (Hex.ofBytes bytes)) = .ok a) : bytes = a.bytes := by
  rcases ofValue_eq_ok_iff.mp h with h | ⟨t, ht, -, hread⟩
  · cases h
  · cases ht
    rw [Hex.read?_ofBytes] at hread
    exact Option.some.inj hread

namespace Session

variable {s : Session} {b : Binding} {args : List Value} {reply : Reply}

/-- A call resolves if it is sent and its answer is a result that resolves. -/
theorem invoke_eq_ok_iff {i : Invocation} {result : CallResult} :
    (s.invoke i reply).2 = .ok result ↔
      ∃ kind payload r, i.request = .ok (kind, payload) ∧ (s.call kind payload reply).2 = .ok r ∧
        i.callee.processResult i.binding.objectReturn r = .ok result := by
  cases hrequest : i.request with
  | error e => simp [invoke, Invocation.step, hrequest]
  | ok request =>
    rw [invoke_of_request hrequest, Invocation.outcome, Except.bind_eq_ok_iff]
    constructor
    · rintro ⟨r, hr, hresult⟩
      exact ⟨request.1, request.2, r, rfl, hr, hresult⟩
    · rintro ⟨_, _, r, hsame, hr, hresult⟩
      cases hsame
      exact ⟨r, hr, hresult⟩

/-- The ledger reports an address for the contract that a binding creates: the creation is sent, and the
answer names the address and no exception. -/
def Reports (s : Session) (b : Binding) (args : List Value) (reply : Reply) (a : Address) : Prop :=
  ∃ kind payload r, (Invocation.mk b (.constructor b.constructor) args none .none).request =
      .ok (kind, payload) ∧
    (s.call kind payload reply).2 = .ok r ∧ r.exception = none ∧ r.contractAddress = some a.bytes

theorem performDeploy_eq_binding_iff {c : Binding} :
    (∃ n, (s.performDeploy b args reply).2 = .binding n c) ↔
      ∃ address, (s.invoke ⟨b, .constructor b.constructor, args, none, .none⟩ reply).2 =
        .ok (.value address) ∧ b.atAddress address = .ok c := by
  rw [performDeploy]
  generalize s.invoke _ reply = answered
  obtain ⟨s, outcome⟩ := answered
  cases outcome with
  | error e => simp
  | ok result =>
    cases result with
    | object values raw => simp
    | value address =>
      cases hat : b.atAddress address with
      | error e => simp [addBinding, hat]
      | ok c' => simp [addBinding, hat]

/-- A creation gives a binding just when the ledger reports an address, and then it is bound there. -/
theorem performDeploy_iff_reports {c : Binding} :
    (∃ n, (s.performDeploy b args reply).2 = .binding n c) ↔
      ∃ a, s.Reports b args reply a ∧ b.atAddress (.text a.hex) = .ok c := by
  rw [performDeploy_eq_binding_iff]
  constructor
  · rintro ⟨address, hinvoke, hat⟩
    obtain ⟨kind, payload, r, hrequest, hr, hresult⟩ := invoke_eq_ok_iff.mp hinvoke
    obtain ⟨hexception, bytes, hne, hcontract, hvalue⟩ :=
      Callee.processResult_constructor_iff.mp hresult
    cases hvalue
    have htruthy : (Value.text (Hex.ofBytes bytes)).isTruthy = true := by
      obtain ⟨x, rest, rfl⟩ := List.exists_cons_of_ne_nil hne
      rfl
    obtain ⟨a, ha⟩ := Binding.exists_address_of_atAddress htruthy hat
    have hbytes := Address.eq_of_ofValue_hex ha
    subst hbytes
    exact ⟨a, ⟨kind, payload, r, hrequest, hr, hexception, hcontract⟩, hat⟩
  · rintro ⟨a, ⟨kind, payload, r, hrequest, hr, hexception, hcontract⟩, hat⟩
    refine ⟨.text a.hex, invoke_eq_ok_iff.mpr ⟨kind, payload, r, hrequest, hr, ?_⟩, hat⟩
    refine Callee.processResult_constructor_iff.mpr ⟨hexception, a.bytes, ?_, hcontract, rfl⟩
    exact List.ne_nil_of_length_pos (by rw [a.length_eq]; decide)

end Session

/-- **Moving a binding is the same as giving the address with each call.** A binding can be moved to any
address, in whatever form it is given, and the calls of its functions then send the same requests to
this address and come to the same outcomes as the calls of the old binding at the address. A creation
gives a binding just when the ledger reports the address of the new contract, and it is the old binding
moved to this address. -/
theorem rebinding_agrees {abi address bytecode account : Value} {config : Config} {objectReturn : Bool}
    {b : Binding} (hb : Binding.ofValue abi config address bytecode account objectReturn = .ok b) :
    (∀ a v, Address.IsGivenAs a v → ∃ c, b.atAddress v = .ok c ∧ c.IsMovedTo b a) ∧
      ∀ (s : Session) (args : List Value) (reply : Reply),
        (∀ a, s.Reports b args reply a →
          ∃ n c, (s.performDeploy b args reply).2 = .binding n c ∧ c.IsMovedTo b a) ∧
        (∀ n c, (s.performDeploy b args reply).2 = .binding n c → ∃ a, s.Reports b args reply a) := by
  have hsorted := Binding.isSorted_of_ofValue hb
  have hmove {a : Address} {v : Value} (hv : Address.ofValue v = .ok a) :
      ∃ c, b.atAddress v = .ok c ∧ c.IsMovedTo b a := by
    obtain ⟨code, hat⟩ := Binding.atAddress_eq hb hv
    exact ⟨_, hat, Binding.isMovedTo_relocate hsorted a code⟩
  refine ⟨fun a v hv => hmove hv.ofValue_eq, fun s args reply => ⟨fun a ha => ?_, fun n c hc => ?_⟩⟩
  · obtain ⟨c, hat, hmoved⟩ := hmove (Address.ofValue_hex a)
    obtain ⟨n, hn⟩ := Session.performDeploy_iff_reports.mpr ⟨a, ha, hat⟩
    exact ⟨n, c, hn, hmoved⟩
  · obtain ⟨a, ha, -⟩ := Session.performDeploy_iff_reports.mp ⟨n, hc⟩
    exact ⟨a, ha⟩

/-- The address whose digits are twenty times `AB`. -/
def doorAddress : Address := ⟨List.replicate 20 0xAB, rfl⟩

/-- The reply of a ledger that has created a contract there. -/
def doorReply : Reply where
  raised := none
  result := ⟨[], some doorAddress.bytes, none⟩
  post := .response .none
  connecting := .done
  sending := .done

/-- A binding moved to an address in mixed letter cases, and the binding of a new contract. -/
theorem rebinding_agrees_door :
    (∃ c, Invocation.doorCall.binding.atAddress
        (.text ("0X" ++ (List.replicate 20 ("aB" : Text)).flatten)) = .ok c ∧
      c.IsMovedTo Invocation.doorCall.binding doorAddress) ∧
    ∃ n c, ((Session.new (.scripted []) []).performDeploy Invocation.doorCall.binding [] doorReply).2 =
        .binding n c ∧
      c.IsMovedTo Invocation.doorCall.binding doorAddress := by
  have hbinding : Binding.ofValue Invocation.doorAbi .standard (.text (List.replicate 40 (.char '0')))
      .none .none false = .ok Invocation.doorCall.binding := rfl
  have hgiven : doorAddress.IsGivenAs (.text ("0X" ++ (List.replicate 20 ("aB" : Text)).flatten)) :=
    Or.inr ⟨_, rfl, "0X", by decide, _, rfl, by decide⟩
  have hreports : (Session.new (.scripted []) []).Reports Invocation.doorCall.binding [] doorReply
      doorAddress := ⟨_, _, _, rfl, rfl, rfl, rfl⟩
  obtain ⟨hmove, hdeploy⟩ := rebinding_agrees hbinding
  exact ⟨hmove _ _ hgiven, (hdeploy _ _ _).1 _ hreports⟩

end LedgerAbi
