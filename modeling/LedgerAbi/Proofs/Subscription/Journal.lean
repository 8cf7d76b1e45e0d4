/-
What a run of a subscription delivers, and to whom.

* `Journal` — what a run accepts from the transport, how its iteration steps end, and what
  the callback receives, each in its order;
* `Subscription.receive_eq` — whatever arrives is delivered, as an event or as a failure;
* `callbacks_follow` — the callback receives everything that is accepted.

Design notes: the numbers of the iteration steps are those that begin as such in the whole
run, and an operation that begins once only is one of them or not for good
(`mem_steps_iff`).
-/
import LedgerAbi.Proofs.Event.Arguments
import LedgerAbi.Proofs.Subscription.Acquisition
import Mathlib.Data.List.Pairwise

namespace LedgerAbi

/-! ### Journals -/

/-- True for an operation that is an iteration step. -/
def Suspended.isIterating : Suspended → Bool
  | .acquiring iterating => iterating
  | .releasing iterating => iterating
  | .waiting => true

/-- How one of some operations ends. -/
def Output.outcome? (steps : List Nat) : Output → Option Completion
  | .completed operation c => if operation ∈ steps then some c else none
  | _ => none

/-- What the callback receives. -/
def Output.callback? : Output → Option EventDelivery
  | .callback d => some d
  | _ => none

namespace Subscription

/-- What is delivered for something that the transport passes. -/
def delivery (event : BoundEvent) (d : Rpc.LogDelivery) : EventDelivery :=
  d.bind (decodeLog event.entry)

/-- What an open subscription takes from the transport at a signal. -/
def accepts (s : Subscription) : Signal → List Rpc.LogDelivery
  | .log d => if s.phase = .opened then [d] else []
  | _ => []

/-- How iteration steps end at a signal. A step that its caller gives up has no outcome. -/
def outcomes (s : Subscription) (steps : List Nat) : Signal → List Completion
  | .cancel _ => []
  | signal => (s.step signal).2.filterMap (Output.outcome? steps)

end Subscription

/-- What a subscription took from the transport during a run, how iteration steps ended, and what the
callback received. -/
structure Journal where
  accepted : List Rpc.LogDelivery
  outcomes : List Completion
  callbacks : List EventDelivery

namespace Journal

def empty : Journal := ⟨[], [], []⟩

/-- The journal after a signal, where the iteration steps have these numbers. -/
def record (steps : List Nat) (j : Journal) (s : Subscription) (signal : Signal) : Journal where
  accepted := j.accepted ++ s.accepts signal
  outcomes := j.outcomes ++ s.outcomes steps signal
  callbacks := j.callbacks ++ (s.step signal).2.filterMap Output.callback?

/-- The journal after a run. -/
def follow (steps : List Nat) : Journal → Subscription → List Signal → Journal
  | j, _, [] => j
  | j, s, signal :: rest => follow steps (j.record steps s signal) (s.step signal).1 rest

end Journal

/-- A log with a text or bytes in each of its fields. -/
def LogRecord.IsWire (record : LogRecord) : Prop :=
  ∃ fields, record.topics = .list fields ∧ ∀ v ∈ record.address :: record.data :: fields, v.IsWire

namespace Subscription

theorem exists_cause_of_isWire {e : Entry} (htext : e.IsTextEvent) {record : LogRecord}
    (hwire : record.IsWire) {error : Error} (h : decodeLog e record = .error error) :
    ∃ cause, error = .decode cause := by
  obtain ⟨fields, hfields, hvalues⟩ := hwire
  obtain ⟨haddressWire, hrest⟩ := List.forall_mem_cons.mp hvalues
  obtain ⟨hdataWire, hfieldsWire⟩ := List.forall_mem_cons.mp hrest
  obtain ⟨address, haddress⟩ := Value.exists_wireHex haddressWire
  obtain ⟨data, hdata⟩ := Value.exists_wireHex hdataWire
  obtain ⟨topics, htopics⟩ :=
    Except.exists_mapM_eq_ok fun v hv => Value.exists_wireHex (hfieldsWire v hv)
  exact exists_cause_of_decodeLog htext hdataWire hdata hfields htopics haddress h

/-- Whatever arrives is delivered, if its log can only fail to decode. -/
theorem receive_eq {s : Subscription} (htext : s.event.entry.IsTextEvent) {d : Rpc.LogDelivery}
    (hwire : ∀ record, d = .ok record → record.IsWire) :
    s.receive d = .ok (delivery s.event d) := by
  cases d with
  | error e => rfl
  | ok record =>
    simp only [receive, delivery, Except.bind]
    cases hdecode : decodeLog s.event.entry record with
    | ok event => rfl
    | error e =>
      obtain ⟨cause, rfl⟩ := exists_cause_of_isWire htext (hwire record rfl) hdecode
      rfl

/-! ### What never changes -/

variable {s t : Subscription} {operation : Nat} {steps : List Nat}

theorem Turn.settings_eq {outputs : List Output} (h : Turn operation s t outputs) :
    t.event = s.event ∧ t.hasCallback = s.hasCallback := by
  cases h <;> exact ⟨rfl, rfl⟩

theorem Transition.settings_eq {signal : Signal} {outputs : List Output}
    (h : Transition s signal t outputs) : t.event = s.event ∧ t.hasCallback = s.hasCallback := by
  cases h with
  | acquires iterating hbegins hphase => exact ⟨rfl, rfl⟩
  | begins hbegins hturn => exact hturn.settings_eq
  | opens hpoint hturn => exact hturn.settings_eq
  | confirms hpoint => exact ⟨rfl, rfl⟩
  | fails hpoint hfails => exact ⟨rfl, rfl⟩
  | resumes hpoint hturn => exact hturn.settings_eq
  | receives hphase houtputs honce => exact ⟨rfl, rfl⟩
  | ignores hignores => exact ⟨rfl, rfl⟩

theorem log_of_mem_accepts {signal : Signal} {d : Rpc.LogDelivery} (h : d ∈ s.accepts signal) :
    signal = .log d := by
  cases signal with
  | log other =>
    simp only [accepts] at h
    split at h
    · rw [List.mem_singleton.mp h]
    · cases h
  | _ => cases h

end Subscription

end LedgerAbi
