/-
An answer of the ledger settles a call in one way.

* `Callee.Settles` — the outcomes of a call, with one constructor for each sort of answer;
* `Callee.FailsToName` — the one sort of answer that none of them is for;
* `processResult_settles` — a call comes to the outcome that its answer settles it with,
  and an answer with an exception is never a value.

Design notes: `Callee.Settles` does not mention how an answer is processed.  Its
constructors are told apart by the exception first, so what is said of an exception holds
whatever else the answer carries.  That they are all there is is
`Callee.settles_processResult`, and that they exclude each other follows from
`Callee.Settles.processResult_eq`, since processing has one outcome.
-/
import LedgerAbi.Call.Invocation
import LedgerAbi.Proofs.Call.Decoding

namespace LedgerAbi

/-! ### Reasons -/

theorem decodeRevertReason_of_le {returnData : Bytes} (h : returnData.length ≤ 4) :
    decodeRevertReason returnData = .ok [] := if_pos h

/-- Behind four bytes there is one string, which is the reason, or data that are none. -/
theorem decodeRevertReason_of_lt {returnData : Bytes} (h : 4 < returnData.length) :
    (∃ reason, decodeValues [.string] (.bytes (returnData.drop 4)) = .ok [.text reason] ∧
      decodeRevertReason returnData = .ok reason) ∨
    ∃ cause, decodeValues [.string] (.bytes (returnData.drop 4)) = .error (.decode cause) ∧
      decodeRevertReason returnData = .error (.decode cause) := by
  have hlong : ¬ returnData.length ≤ 4 := Nat.not_le_of_lt h
  show (∃ reason, decodeBytes [.string] (returnData.drop 4) = _ ∧ _) ∨
    ∃ cause, decodeBytes [.string] (returnData.drop 4) = _ ∧ _
  rw [decodeRevertReason, if_neg hlong, decodeBytes]
  dsimp only
  cases Data.decode [.string] (returnData.drop 4) with
  | ok found => exact Or.inl ⟨found.1, rfl, rfl⟩
  | error cause => exact Or.inr ⟨_, rfl, rfl⟩

/-! ### Outputs that cannot be named -/

theorem unpackOutput_of_failsToName {e : Entry} {data : Value} {objectReturn : Bool}
    (h : e.FailsToName data objectReturn) :
    unpackOutput e data objectReturn = .error (.fault .wrongKind) := by
  obtain ⟨rfl, htwo, hkeyless, raw, hraw⟩ := h
  have hkeys : (parameterKeys e.outputs).all Value.isKey = false :=
    (all_isKey_keysFrom_eq_false_iff 0 e.outputs).mpr hkeyless
  have hempty : e.outputs.isEmpty = false :=
    List.isEmpty_eq_false_iff.mpr (List.ne_nil_of_length_pos (by omega))
  have hlength : raw.length = e.outputs.length := by
    rw [length_of_decodeValues hraw, Entry.outputTypes, List.length_map]
  rw [unpackOutput, hempty, if_neg Bool.false_ne_true, hraw]
  rcases raw with _ | ⟨v, _ | ⟨w, rest⟩⟩
  · simp only [List.length_nil] at hlength
    omega
  · simp only [List.length_cons, List.length_nil] at hlength
    omega
  · dsimp only [bind, Except.bind]
    rw [hkeys, Bool.not_true, if_neg Bool.false_ne_true, if_neg Bool.false_ne_true]

/-! ### Outcomes -/

/-- The exception of the answer, if there is one, has a message or a code that can be written out. -/
def RawResult.IsWritable (r : RawResult) : Prop :=
  ∀ e, r.exception = some e → e.message.isTruthy = true ∨ exceedsDigitLimit e.code = false

namespace Callee

/-- The outcome that an answer settles a call with. -/
inductive Settles (c : Callee) (objectReturn : Bool) (r : RawResult) :
    Except Error CallResult → Prop where
  /-- Reverted, without any data for a reason. -/
  | reverted {e : LedgerException} (hexception : r.exception = some e) (hcode : e.code = revertCode)
      (hdata : r.returnData.length ≤ 4) :
      Settles c objectReturn r (.error (.execution (.reverted [] revertCode)))
  /-- Reverted, with a string behind four bytes. -/
  | revertedFor {e : LedgerException} {reason : Text} (hexception : r.exception = some e)
      (hcode : e.code = revertCode) (hdata : 4 < r.returnData.length)
      (hreason : decodeValues [.string] (.bytes (r.returnData.drop 4)) = .ok [.text reason]) :
      Settles c objectReturn r (.error (.execution (.reverted reason revertCode)))
  /-- Reverted, with data behind four bytes that are no string. -/
  | revertedGarbled {e : LedgerException} {cause : DecodeFailure} (hexception : r.exception = some e)
      (hcode : e.code = revertCode) (hdata : 4 < r.returnData.length)
      (hcause : decodeValues [.string] (.bytes (r.returnData.drop 4)) = .error (.decode cause)) :
      Settles c objectReturn r (.error (.decode cause))
  /-- Any other exception. -/
  | failed {e : LedgerException} (hexception : r.exception = some e) (hcode : e.code ≠ revertCode) :
      Settles c objectReturn r (.error (.execution (.failed e.message e.code)))
  /-- A contract was created. -/
  | created {entry : Option Entry} {address : Bytes} (hcallee : c = constructor entry)
      (hexception : r.exception = none) (hcontract : r.contractAddress = some address)
      (haddress : address ≠ []) : Settles c objectReturn r (.ok (.value (.text (Hex.ofBytes address))))
  /-- A contract was created, but nothing says where. -/
  | unplaced {entry : Option Entry} (hcallee : c = constructor entry) (hexception : r.exception = none)
      (hcontract : r.contractAddress = none ∨ r.contractAddress = some []) :
      Settles c objectReturn r (.error (.decode .noContractAddress))
  /-- A function returned its outputs. -/
  | returned {f : BoundFunction} {result : CallResult} (hcallee : c = function f)
      (hexception : r.exception = none)
      (hresult : unpackOutput f.entry (.bytes r.returnData) objectReturn = .ok result) :
      Settles c objectReturn r (.ok result)
  /-- A function returned data that are not its outputs. -/
  | garbled {f : BoundFunction} {cause : DecodeFailure} (hcallee : c = function f)
      (hexception : r.exception = none)
      (hcause : unpackOutput f.entry (.bytes r.returnData) objectReturn = .error (.decode cause)) :
      Settles c objectReturn r (.error (.decode cause))

/-- A function returned outputs that cannot be named, as an output has a list or a dictionary for its
name. -/
def FailsToName (c : Callee) (objectReturn : Bool) (r : RawResult) : Prop :=
  r.exception = none ∧
    ∃ f, c = function f ∧ f.entry.FailsToName (.bytes r.returnData) objectReturn

variable {c : Callee} {objectReturn : Bool} {r : RawResult}

theorem processResult_of_exception {e : LedgerException} (h : r.exception = some e) :
    c.processResult objectReturn r = .error (executionFailure r e) := by
  simp only [processResult, h]

theorem isReverted_iff {e : LedgerException} (h : r.exception = some e) :
    r.isReverted = true ↔ e.code = revertCode := by
  rw [RawResult.isReverted, h]
  exact beq_iff_eq

theorem executionFailure_of_reason {e : LedgerException} (h : r.exception = some e)
    (hcode : e.code = revertCode) {reason : Text}
    (hreason : decodeRevertReason r.returnData = .ok reason) :
    executionFailure r e = .execution (.reverted reason revertCode) := by
  rw [executionFailure, if_pos ((isReverted_iff h).mpr hcode), hreason, hcode]

theorem executionFailure_of_garbled {e : LedgerException} (h : r.exception = some e)
    (hcode : e.code = revertCode) {cause : Error}
    (hcause : decodeRevertReason r.returnData = .error cause) : executionFailure r e = cause := by
  rw [executionFailure, if_pos ((isReverted_iff h).mpr hcode), hcause]

theorem executionFailure_of_failed (hwritable : r.IsWritable) {e : LedgerException}
    (h : r.exception = some e) (hcode : e.code ≠ revertCode) :
    executionFailure r e = .execution (.failed e.message e.code) := by
  have hshort : ¬ (!e.message.isTruthy && exceedsDigitLimit e.code) = true := by
    rcases hwritable e h with hmessage | hdigits
    · simp [hmessage]
    · simp [hdigits]
  rw [executionFailure, if_neg fun h' => hcode ((isReverted_iff h).mp h'), if_neg hshort]

theorem processResult_of_address {entry : Option Entry} (h : r.exception = none) {address : Bytes}
    (hcontract : r.contractAddress = some address) (haddress : address ≠ []) :
    (constructor entry).processResult objectReturn r = .ok (.value (.text (Hex.ofBytes address))) := by
  obtain ⟨b, rest, rfl⟩ := List.exists_cons_of_ne_nil haddress
  simp only [processResult, h, hcontract]

theorem processResult_of_no_address {entry : Option Entry} (h : r.exception = none)
    (hcontract : r.contractAddress = none ∨ r.contractAddress = some []) :
    (constructor entry).processResult objectReturn r = .error (.decode .noContractAddress) := by
  rcases hcontract with hcontract | hcontract
  · simp only [processResult, h, hcontract]
  · simp only [processResult, h, hcontract]

theorem processResult_function {f : BoundFunction} (h : r.exception = none) :
    (function f).processResult objectReturn r =
      unpackOutput f.entry (.bytes r.returnData) objectReturn := by
  simp only [processResult, h]

/-- Outputs that cannot be named fail in a way of their own. -/
theorem processResult_of_failsToName (h : c.FailsToName objectReturn r) :
    c.processResult objectReturn r = .error (.fault .wrongKind) := by
  obtain ⟨hexception, f, rfl, hfails⟩ := h
  rw [processResult_function hexception, unpackOutput_of_failsToName hfails]

/-- A settled call comes to just this outcome. -/
theorem Settles.processResult_eq (hwritable : r.IsWritable) {outcome : Except Error CallResult}
    (h : c.Settles objectReturn r outcome) : c.processResult objectReturn r = outcome := by
  -- the conditions of a constructor lead down one branch of the processing
  cases h with
  | reverted hexception hcode hdata =>
    rw [processResult_of_exception hexception,
      executionFailure_of_reason hexception hcode (decodeRevertReason_of_le hdata)]
  | revertedFor hexception hcode hdata hreason =>
    rcases decodeRevertReason_of_lt hdata with ⟨reason, hfound, hdecode⟩ | ⟨cause, hfound, -⟩
    · rw [hreason] at hfound
      cases hfound
      rw [processResult_of_exception hexception, executionFailure_of_reason hexception hcode hdecode]
    · rw [hreason] at hfound
      cases hfound
  | revertedGarbled hexception hcode hdata hcause =>
    rcases decodeRevertReason_of_lt hdata with ⟨reason, hfound, -⟩ | ⟨cause, hfound, hdecode⟩
    · rw [hcause] at hfound
      cases hfound
    · rw [hcause] at hfound
      cases hfound
      rw [processResult_of_exception hexception, executionFailure_of_garbled hexception hcode hdecode]
  | failed hexception hcode =>
    rw [processResult_of_exception hexception, executionFailure_of_failed hwritable hexception hcode]
  | created hcallee hexception hcontract haddress =>
    rw [hcallee, processResult_of_address hexception hcontract haddress]
  | unplaced hcallee hexception hcontract =>
    rw [hcallee, processResult_of_no_address hexception hcontract]
  | returned hcallee hexception hresult =>
    rw [hcallee, processResult_function hexception, hresult]
  | garbled hcallee hexception hcause =>
    rw [hcallee, processResult_function hexception, hcause]

theorem settles_of_exception (hwritable : r.IsWritable) {e : LedgerException}
    (h : r.exception = some e) : c.Settles objectReturn r (.error (executionFailure r e)) := by
  by_cases hcode : e.code = revertCode
  · by_cases hdata : r.returnData.length ≤ 4
    · rw [executionFailure_of_reason h hcode (decodeRevertReason_of_le hdata)]
      exact .reverted h hcode hdata
    · have hlong := Nat.lt_of_not_le hdata
      rcases decodeRevertReason_of_lt hlong with ⟨reason, hfound, hdecode⟩ | ⟨cause, hfound, hdecode⟩
      · rw [executionFailure_of_reason h hcode hdecode]
        exact .revertedFor h hcode hlong hfound
      · rw [executionFailure_of_garbled h hcode hdecode]
        exact .revertedGarbled h hcode hlong hfound
  · rw [executionFailure_of_failed hwritable h hcode]
    exact .failed h hcode

theorem settles_constructor (entry : Option Entry) (h : r.exception = none) :
    (constructor entry).Settles objectReturn r
      ((constructor entry).processResult objectReturn r) := by
  by_cases haddress : ∃ address, r.contractAddress = some address ∧ address ≠ []
  · obtain ⟨address, hcontract, hsome⟩ := haddress
    rw [processResult_of_address h hcontract hsome]
    exact .created rfl h hcontract hsome
  · have hnone : r.contractAddress = none ∨ r.contractAddress = some [] := by
      cases hcontract : r.contractAddress with
      | none => exact Or.inl rfl
      | some address =>
        right
        by_contra hsome
        exact haddress ⟨address, hcontract, fun hempty => hsome (congrArg some hempty)⟩
    rw [processResult_of_no_address h hnone]
    exact .unplaced rfl h hnone

/-- Every call is settled, unless its outputs cannot be named. -/
theorem settles_processResult (hwritable : r.IsWritable) (hnames : ¬ c.FailsToName objectReturn r) :
    c.Settles objectReturn r (c.processResult objectReturn r) := by
  cases hexception : r.exception with
  | some e =>
    rw [processResult_of_exception hexception]
    exact settles_of_exception hwritable hexception
  | none =>
    cases c with
    | constructor entry => exact settles_constructor entry hexception
    | function f =>
      -- outputs that can be named decode, or fail as data that do not
      have hnamed : ¬ f.entry.FailsToName (.bytes r.returnData) objectReturn :=
        fun hfails => hnames ⟨hexception, f, rfl, hfails⟩
      rw [processResult_function hexception]
      rcases (isDecoding_unpackOutput_iff (Or.inl ⟨_, rfl⟩) objectReturn).mpr hnamed with
        ⟨result, hresult, -⟩ | ⟨cause, hcause⟩
      · rw [hresult]
        exact .returned rfl hexception hresult
      · rw [hcause]
        exact .garbled rfl hexception hcause

end Callee

/-- **A failure of the ledger never looks like a value.**  A call comes to an outcome just when its
answer settles it with this outcome, or when the outputs that were returned cannot be named.  So an
answer with an exception is never a value, and whatever fails otherwise is a failure of execution or
does not decode.  The exception has a message or a code that can be written out. -/
theorem processResult_settles (c : Callee) (objectReturn : Bool) {r : RawResult}
    (hwritable : r.IsWritable) :
    (∀ outcome, c.processResult objectReturn r = outcome ↔
      c.Settles objectReturn r outcome ∨
        (c.FailsToName objectReturn r ∧ outcome = .error (.fault .wrongKind))) ∧
    (r.exception ≠ none → ∀ result, c.processResult objectReturn r ≠ .ok result) ∧
    (¬ c.FailsToName objectReturn r → ∀ error, c.processResult objectReturn r = .error error →
      (∃ cause, error = .execution cause) ∨ ∃ cause, error = .decode cause) := by
  refine ⟨?_, ?_, ?_⟩
  · intro outcome
    constructor
    · rintro rfl
      by_cases hnames : c.FailsToName objectReturn r
      · exact Or.inr ⟨hnames, Callee.processResult_of_failsToName hnames⟩
      · exact Or.inl (Callee.settles_processResult hwritable hnames)
    · rintro (hsettles | ⟨hnames, rfl⟩)
      · exact hsettles.processResult_eq hwritable
      · exact Callee.processResult_of_failsToName hnames
  · intro hexception result hresult
    obtain ⟨e, he⟩ := Option.ne_none_iff_exists'.mp hexception
    rw [Callee.processResult_of_exception he] at hresult
    cases hresult
  · intro hnames error herror
    have hsettles := Callee.settles_processResult hwritable hnames
    rw [herror] at hsettles
    cases hsettles with
    | reverted => exact Or.inl ⟨_, rfl⟩
    | revertedFor => exact Or.inl ⟨_, rfl⟩
    | revertedGarbled => exact Or.inr ⟨_, rfl⟩
    | failed => exact Or.inl ⟨_, rfl⟩
    | unplaced => exact Or.inr ⟨_, rfl⟩
    | garbled => exact Or.inr ⟨_, rfl⟩

/-- An answer with everything at once: data, the address of a contract, and an exception. -/
def mixedResult (code : Int) : RawResult :=
  ⟨List.replicate 4 0, some (List.replicate 20 1), some ⟨code, .none⟩⟩

theorem isWritable_mixedResult {code : Int} (h : exceedsDigitLimit code = false) :
    (mixedResult code).IsWritable := by
  rintro e ⟨⟩
  exact Or.inr h

/-- For such an answer a creation is reverted without a reason, or fails with another code. -/
theorem processResult_settles_mixed :
    (Callee.constructor none).processResult true (mixedResult 16) =
      .error (.execution (.reverted [] 16)) ∧
    (Callee.constructor none).processResult true (mixedResult 10) =
      .error (.execution (.failed .none 10)) := by
  constructor
  · have hwritable := isWritable_mixedResult (exceedsDigitLimit_eq_false (i := 16) (by decide))
    exact ((processResult_settles (.constructor none) true hwritable).1 _).mpr
      (Or.inl (.reverted rfl rfl (by decide)))
  · have hwritable := isWritable_mixedResult (exceedsDigitLimit_eq_false (i := 10) (by decide))
    exact ((processResult_settles (.constructor none) true hwritable).1 _).mpr
      (Or.inl (.failed (e := ⟨10, .none⟩) rfl (by decide)))

theorem processResult_mixed_of_overlong {code : Int} (h : exceedsDigitLimit code = true) :
    (Callee.constructor none).processResult true (mixedResult code) =
      .error (.fault .overlongInteger) := by
  have hcode : code ≠ revertCode := by
    rintro rfl
    rw [exceedsDigitLimit_eq_false (by decide)] at h
    cases h
  have hreverted : ¬ (mixedResult code).isReverted = true := fun hreverted =>
    hcode ((Callee.isReverted_iff rfl).mp hreverted)
  have hlong : (!(Value.none).isTruthy && exceedsDigitLimit code) = true := by
    rw [h]
    rfl
  rw [Callee.processResult_of_exception rfl, Callee.executionFailure, if_neg hreverted, if_pos hlong]

/-- A function of a document that returns two truth values, of which the first has a list for its
name, and an exception whose code has too many digits to be written out: neither is settled. -/
theorem not_settles_listNamed_overlong :
    ((∃ v, Entry.ofValue v = .ok listNamedFunction) ∧
      ¬ Callee.Settles (.function ⟨"f()", listNamedFunction⟩) true ⟨List.replicate 64 0, none, none⟩
        (Callee.processResult (.function ⟨"f()", listNamedFunction⟩) true
          ⟨List.replicate 64 0, none, none⟩)) ∧
    ¬ Callee.Settles (.constructor none) true (mixedResult ((10 ^ digitLimit : Nat) : Int))
      (Callee.processResult (.constructor none) true
        (mixedResult ((10 ^ digitLimit : Nat) : Int))) := by
  refine ⟨⟨?_, ?_⟩, ?_⟩
  · exact ⟨.dict [("name", .text "f"), ("outputs", .list [
      .dict [("name", .list [.text "a"]), ("type", .text "bool")],
      .dict [("name", .text "b"), ("type", .text "bool")]])], rfl⟩
  · have hfault : Callee.processResult (.function ⟨"f()", listNamedFunction⟩) true
        ⟨List.replicate 64 0, none, none⟩ = .error (.fault .wrongKind) := rfl
    rw [hfault]
    intro h
    cases h
  · have hlong : exceedsDigitLimit ((10 ^ digitLimit : Nat) : Int) = true := by
      rw [exceedsDigitLimit, Int.natAbs_natCast]
      exact decide_eq_true (Nat.le_refl _)
    rw [processResult_mixed_of_overlong hlong]
    intro h
    cases h

end LedgerAbi
