/-
What becomes of a post.

* `Client.carries_of_postResult`, `Client.cases_of_postResult` — a post is answered with a
  result, or the transport fails, or the answer is nested too deep to be read;
* `Misread` — the results that the reader has no rule for: where a text is expected they
  have something else, and where an integer is expected something that is not a number;
* `readRawResult_eq_fault_iff` — reading fails outside its vocabulary on just these;
* `answersOrFails_iff` — but for these and for answers nested too deep, a post gives a result or
  fails as the transport does.

Design notes: a part that is missing or empty counts as absent, and a part of which the parts
are asked has to be an object; all that is malformed in these ways is told.  The parts are read
one after the other, so a part is only misread if all before it are readable.
-/
import LedgerAbi.Proofs.Call.Reply
import LedgerAbi.Proofs.Json.Nesting
import LedgerAbi.Proofs.Rpc.Message

namespace LedgerAbi.Rpc

/-! ### The result in an answer -/

theorem exists_members_of_responseResult {url : Text} {response result : Value}
    (h : responseResult url response = .ok result) :
    ∃ members : Members, response = .dict members ∧ members.get? "error" = none ∧
      members.get? "result" = some result := by
  cases response with
  | dict members =>
    obtain ⟨_, herror, h⟩ := Except.bind_eq_ok_iff.mp h
    refine ⟨members, rfl, ?_, ?_⟩
    · cases hget : Members.get? members "error" with
      | none => rfl
      | some error =>
        rw [reportedError, hget] at herror
        cases error <;> cases herror
    · cases hget : Members.get? members "result" with
      | none =>
        rw [hget] at h
        cases h
      | some result' =>
        rw [hget] at h
        cases h
        rfl
  | _ => cases h

theorem exists_cause_of_responseResult {url : Text} {response : Value} {e : Error}
    (h : responseResult url response = .error e) : ∃ cause, e = .transport cause := by
  cases response with
  | dict members =>
    rcases Except.bind_eq_error_iff.mp h with h | ⟨_, -, h⟩
    · unfold reportedError at h
      split at h
      · cases h
      · cases h
        exact ⟨_, rfl⟩
      · cases h
        exact ⟨_, rfl⟩
    · split at h
      · cases h
      · cases h
        exact ⟨_, rfl⟩
  | _ =>
    cases h
    exact ⟨_, rfl⟩

/-- A post is answered with a text that is nested deeper than the limit allows. -/
def PostOutcome.IsTooDeep (nesting : Nat) (outcome : PostOutcome) : Prop :=
  ∃ t, outcome = .text t ∧ Json.IsTooDeep nesting t

namespace Client

variable {client : Client} {post : PostOutcome}

theorem carries_of_postResult {result : Value} (h : client.postResult post = .ok result) :
    post.Carries client.nesting result := by
  cases post with
  | response v =>
    obtain ⟨members, rfl, herror, hresult⟩ := exists_members_of_responseResult h
    exact ⟨members, Or.inl rfl, herror, hresult⟩
  | text t =>
    rw [postResult] at h
    split at h
    · next v hparse =>
      obtain ⟨members, rfl, herror, hresult⟩ := exists_members_of_responseResult h
      exact ⟨members, Or.inr ⟨t, rfl, hparse⟩, herror, hresult⟩
    · cases h
    · cases h
  | wrongContentType status => cases h
  | connectionError cause => cases h
  | timeout => cases h

theorem cases_of_postResult {e : Error} (h : client.postResult post = .error e) :
    (∃ cause, e = .transport cause) ∨ post.IsTooDeep client.nesting := by
  cases post with
  | response v => exact Or.inl (exists_cause_of_responseResult h)
  | text t =>
    rw [postResult] at h
    split at h
    · exact Or.inl (exists_cause_of_responseResult h)
    · next hdeep => exact Or.inr ⟨t, rfl, hdeep⟩
    · cases h
      exact Or.inl ⟨_, rfl⟩
  | wrongContentType status =>
    cases h
    exact Or.inl ⟨_, rfl⟩
  | connectionError cause =>
    cases h
    exact Or.inl ⟨_, rfl⟩
  | timeout =>
    cases h
    exact Or.inl ⟨_, rfl⟩

end Client

/-! ### Results that are misread -/

/-- The returned data in the members of a result. -/
def returnOf (result : Members) : Value := (membersOf (result.getD "Result" .none)).getD "Return" .none

/-- The address of a created contract in the members of a result. -/
def contractAddressOf (result : Members) : Value :=
  (membersOf (result.getD "Receipt" .none)).getD "ContractAddress" .none

/-- Nothing, an empty value or a hexadecimal text. -/
def IsOptionalHex (v : Value) : Prop := v.isTruthy = false ∨ ∃ t b, v = .text t ∧ Hex.read? t = some b

/-- Something that is not empty and is no text. -/
def IsForeign (v : Value) : Prop := v.isTruthy = true ∧ ∀ t, v ≠ .text t

/-- The values that stand for no code: they are no numbers, or not finite. -/
inductive NoCode : Value → Fault → Prop where
  | none : NoCode .none .wrongKind
  | bytes (b : Bytes) : NoCode (.bytes b) .wrongKind
  | list (items : List Value) : NoCode (.list items) .wrongKind
  | dict (members : Members) : NoCode (.dict members) .wrongKind
  | infinite (negative : Bool) : NoCode (.float (.infinite negative)) .infiniteNumber

/-- The results that are misread, at the first part that is not readable. -/
inductive Misread (result : Members) : Fault → Prop where
  /-- The returned data is no text. -/
  | returned (hresult : IsOptionalObject (result.getD "Result" .none))
      (hforeign : IsForeign (returnOf result)) : Misread result .wrongKind
  /-- The address of the contract is no text. -/
  | address (hresult : IsOptionalObject (result.getD "Result" .none))
      (hreturn : IsOptionalHex (returnOf result))
      (hreceipt : IsOptionalObject (result.getD "Receipt" .none))
      (hforeign : IsForeign (contractAddressOf result)) : Misread result .wrongKind
  /-- The code of the exception is no number. -/
  | code {details : Members} {fault : Fault}
      (hresult : IsOptionalObject (result.getD "Result" .none))
      (hreturn : IsOptionalHex (returnOf result))
      (hreceipt : IsOptionalObject (result.getD "Receipt" .none))
      (haddress : IsOptionalHex (contractAddressOf result))
      (hexception : result.getD "Exception" .none = .dict details) (hdetails : details ≠ [])
      (hcode : NoCode (details.getD "Code" (.int 0)) fault) : Misread result fault

theorem optionalMembers_ne_fault {v : Value} {fault : Fault} :
    optionalMembers v ≠ .error (.fault fault) := by
  intro h
  unfold optionalMembers at h
  split at h
  · cases h
  · split at h <;> cases h

theorem exists_optionalHex_iff {v : Value} : (∃ b, optionalHex v = .ok b) ↔ IsOptionalHex v := by
  unfold optionalHex
  split
  · next hfalsy =>
    rw [Bool.not_eq_true'] at hfalsy
    exact iff_of_true ⟨_, rfl⟩ (Or.inl hfalsy)
  · next htruthy =>
    have hnot : v.isTruthy ≠ false := fun hfalsy => htruthy (by rw [hfalsy]; rfl)
    rw [IsOptionalHex, or_iff_right hnot]
    constructor
    · rintro ⟨b, h⟩
      cases v with
      | text t =>
        dsimp only at h
        split at h
        · next b' hb => exact ⟨t, b', rfl, hb⟩
        · cases h
      | _ => cases h
    · rintro ⟨t, b, rfl, hb⟩
      exact ⟨some b, by simp only [hb]⟩

theorem optionalHex_eq_fault_iff {v : Value} {fault : Fault} :
    optionalHex v = .error (.fault fault) ↔ IsForeign v ∧ fault = .wrongKind := by
  constructor
  · intro h
    unfold optionalHex at h
    split at h
    · cases h
    · next htruthy =>
      split at h
      · split at h <;> cases h
      · next hnot =>
        cases h
        exact ⟨⟨by simpa using htruthy, fun t ht => hnot t ht⟩, rfl⟩
  · rintro ⟨⟨htruthy, hnot⟩, rfl⟩
    unfold optionalHex
    rw [htruthy]
    cases v with
    | text t => exact absurd rfl (hnot t)
    | _ => rfl

theorem exceptionCode_eq_fault_iff {v : Value} {fault : Fault} :
    exceptionCode v = .error (.fault fault) ↔ NoCode v fault := by
  constructor
  · intro h
    cases v with
    | none => cases h; exact .none
    | bool b => cases h
    | int i => cases h
    | float x =>
      cases x with
      | finite negative s e => cases h
      | infinite negative => cases h; exact .infinite negative
      | nan => cases h
    | text t =>
      rw [exceptionCode] at h
      split at h <;> cases h
    | bytes b => cases h; exact .bytes b
    | list items => cases h; exact .list items
    | dict members => cases h; exact .dict members
  · intro h
    cases h <;> rfl

/-- Only the code of an exception with members is asked for. -/
theorem reportedException_eq_fault_iff {v : Value} {fault : Fault} :
    reportedException v = .error (.fault fault) ↔
      ∃ details : Members, v = .dict details ∧ details ≠ [] ∧
        NoCode (details.getD "Code" (.int 0)) fault := by
  constructor
  · intro h
    unfold reportedException at h
    split at h
    · cases h
    · next htruthy =>
      cases v with
      | dict details =>
        refine ⟨details, rfl, ?_, ?_⟩
        · rintro rfl
          exact htruthy rfl
        · rcases Except.bind_eq_error_iff.mp h with h | ⟨_, -, h⟩
          · exact exceptionCode_eq_fault_iff.mp h
          · cases h
      | _ => cases h
  · rintro ⟨details, rfl, hdetails, hcode⟩
    have htruthy : (Value.dict details).isTruthy = true := by
      rw [Value.isTruthy, Bool.not_eq_true', List.isEmpty_eq_false_iff]
      exact hdetails
    rw [reportedException, htruthy]
    exact Except.bind_eq_error_iff.mpr (Or.inl (exceptionCode_eq_fault_iff.mpr hcode))

/-- A result is read part by part. -/
theorem readRawResult_dict (result : Members) :
    readRawResult (.dict result) = (do
      let inner ← optionalMembers (result.getD "Result" .none)
      let returnData ← optionalHex (inner.getD "Return" .none)
      let receipt ← optionalMembers (result.getD "Receipt" .none)
      let contractAddress ← optionalHex (receipt.getD "ContractAddress" .none)
      let exception ← reportedException (result.getD "Exception" .none)
      .ok ⟨returnData.getD [], contractAddress, exception⟩) := rfl

/-- **A result is misread at just the parts that the reader has no rule for.** -/
theorem readRawResult_eq_fault_iff {result : Members} {fault : Fault} :
    readRawResult (.dict result) = .error (.fault fault) ↔ Misread result fault := by
  rw [readRawResult_dict]
  constructor
  · intro h
    rcases Except.bind_eq_error_iff.mp h with h | ⟨inner, hinner, h⟩
    · exact absurd h optionalMembers_ne_fault
    obtain ⟨hresult, rfl⟩ := optionalMembers_eq_ok_iff.mp hinner
    rcases Except.bind_eq_error_iff.mp h with h | ⟨returnData, hdata, h⟩
    · obtain ⟨hforeign, rfl⟩ := optionalHex_eq_fault_iff.mp h
      exact .returned hresult hforeign
    have hreturn : IsOptionalHex (returnOf result) := exists_optionalHex_iff.mp ⟨_, hdata⟩
    rcases Except.bind_eq_error_iff.mp h with h | ⟨receipt, hmembers, h⟩
    · exact absurd h optionalMembers_ne_fault
    obtain ⟨hreceipt, rfl⟩ := optionalMembers_eq_ok_iff.mp hmembers
    rcases Except.bind_eq_error_iff.mp h with h | ⟨contractAddress, hhex, h⟩
    · obtain ⟨hforeign, rfl⟩ := optionalHex_eq_fault_iff.mp h
      exact .address hresult hreturn hreceipt hforeign
    have haddress : IsOptionalHex (contractAddressOf result) := exists_optionalHex_iff.mp ⟨_, hhex⟩
    rcases Except.bind_eq_error_iff.mp h with h | ⟨exception, -, h⟩
    · obtain ⟨details, hexception, hdetails, hcode⟩ := reportedException_eq_fault_iff.mp h
      exact .code hresult hreturn hreceipt haddress hexception hdetails hcode
    · cases h
  · -- the parts before the one that is misread are read
    have hmembers {v : Value} (hv : IsOptionalObject v) : optionalMembers v = .ok (membersOf v) :=
      optionalMembers_eq_ok_iff.mpr ⟨hv, rfl⟩
    intro h
    cases h with
    | returned hresult hforeign =>
      refine Except.bind_eq_error_iff.mpr (Or.inr ⟨_, hmembers hresult, ?_⟩)
      exact Except.bind_eq_error_iff.mpr (Or.inl (optionalHex_eq_fault_iff.mpr ⟨hforeign, rfl⟩))
    | address hresult hreturn hreceipt hforeign =>
      obtain ⟨b, hb⟩ := exists_optionalHex_iff.mpr hreturn
      refine Except.bind_eq_error_iff.mpr (Or.inr ⟨_, hmembers hresult, ?_⟩)
      refine Except.bind_eq_error_iff.mpr (Or.inr ⟨b, hb, ?_⟩)
      refine Except.bind_eq_error_iff.mpr (Or.inr ⟨_, hmembers hreceipt, ?_⟩)
      exact Except.bind_eq_error_iff.mpr (Or.inl (optionalHex_eq_fault_iff.mpr ⟨hforeign, rfl⟩))
    | @code details _ hresult hreturn hreceipt haddress hexception hdetails hcode =>
      obtain ⟨b, hb⟩ := exists_optionalHex_iff.mpr hreturn
      obtain ⟨a, ha⟩ := exists_optionalHex_iff.mpr haddress
      refine Except.bind_eq_error_iff.mpr (Or.inr ⟨_, hmembers hresult, ?_⟩)
      refine Except.bind_eq_error_iff.mpr (Or.inr ⟨b, hb, ?_⟩)
      refine Except.bind_eq_error_iff.mpr (Or.inr ⟨_, hmembers hreceipt, ?_⟩)
      refine Except.bind_eq_error_iff.mpr (Or.inr ⟨a, ha, ?_⟩)
      exact Except.bind_eq_error_iff.mpr (Or.inl
        (reportedException_eq_fault_iff.mpr ⟨details, hexception, hdetails, hcode⟩))

theorem parseRawResult_eq_fault {result : Members} {fault : Fault} (h : Misread result fault) :
    parseRawResult (.dict result) = .error (.fault fault) := by
  rw [parseRawResult, readRawResult_eq_fault_iff.mpr h]

/-! ### Posts -/

/-- A post gives a result, or fails as the transport does. -/
def AnswersOrFails (outcome : Except Error RawResult) : Prop :=
  (∃ r, outcome = .ok r) ∨ ∃ cause, outcome = .error (.transport cause)

theorem Misread.not_answersOrFails {client : Client} {post : PostOutcome} {result : Members}
    {fault : Fault} (hcarries : post.Carries client.nesting (.dict result)) (h : Misread result fault) :
    ¬ AnswersOrFails (client.outcome post) := by
  have hfault : client.outcome post = .error (.fault fault) := by
    rw [Client.outcome, postResult_of_carries hcarries]
    exact parseRawResult_eq_fault h
  rw [hfault]
  rintro (⟨r, hr⟩ | ⟨cause, hcause⟩)
  · cases hr
  · cases hcause

theorem PostOutcome.IsTooDeep.not_answersOrFails {client : Client} {post : PostOutcome}
    (h : post.IsTooDeep client.nesting) : ¬ AnswersOrFails (client.outcome post) := by
  obtain ⟨t, rfl, hdeep⟩ := h
  have hfault : client.outcome (.text t) = .error (.fault .tooDeep) := by
    rw [Client.outcome, Client.postResult, hdeep]
    rfl
  rw [hfault]
  rintro (⟨r, hr⟩ | ⟨cause, hcause⟩)
  · cases hr
  · cases hcause

/-- **A post gives a result or fails as the transport does**, whatever becomes of it, unless it is
answered with a text that is nested too deep, or with a result that is misread. -/
theorem answersOrFails_iff (client : Client) (post : PostOutcome) :
    AnswersOrFails (client.outcome post) ↔
      ¬ post.IsTooDeep client.nesting ∧
        ∀ result fault, post.Carries client.nesting (.dict result) → ¬ Misread result fault := by
  constructor
  · intro h
    refine ⟨fun hdeep => hdeep.not_answersOrFails h, ?_⟩
    intro result fault hcarries hmisread
    exact hmisread.not_answersOrFails hcarries h
  · rintro ⟨hdeep, h⟩
    cases hresult : client.postResult post with
    | error e =>
      obtain ⟨cause, rfl⟩ := (Client.cases_of_postResult hresult).resolve_right hdeep
      refine Or.inr ⟨cause, ?_⟩
      rw [Client.outcome, hresult]
      rfl
    | ok v =>
      have hcarries := Client.carries_of_postResult hresult
      have houtcome : client.outcome post = parseRawResult v := by
        rw [Client.outcome, hresult]
        rfl
      rw [houtcome, parseRawResult]
      split
      · exact Or.inl ⟨_, rfl⟩
      · exact Or.inr ⟨_, rfl⟩
      · next fault hfault =>
        cases v with
        | dict result =>
          exact absurd (readRawResult_eq_fault_iff.mp hfault) (h result fault hcarries)
        | _ => cases hfault

/-- The result of a call in which the returned data is a number. -/
def numberResult : Members := [("Result", .dict [("Return", .int 5)])]

theorem not_answersOrFails_number :
    ¬ AnswersOrFails ((Client.ofArguments "http://node" .none .none .none).outcome
      (.response (.dict [("id", .int 1), ("result", .dict numberResult)]))) := by
  have hmisread : Misread numberResult .wrongKind := .returned (Or.inr ⟨_, rfl⟩) ⟨rfl, nofun⟩
  exact hmisread.not_answersOrFails ⟨_, Or.inl rfl, rfl, rfl⟩

end LedgerAbi.Rpc
