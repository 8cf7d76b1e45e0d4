/-
What the texts of a log stream deliver.

* `Rpc.IsMessage` — the shape that a message has: its parts may be missing or
  empty, and the topics of a log may be anything that one can walk through;
* `Rpc.recordOf` — the log that the members of an object describe;
* `Rpc.Delivers` — what a text is to deliver, by what it says;
* `Rpc.dispatch_eq_error_iff`, `Rpc.delivers_of_dispatch` — a text that is nested too deep stops its
  reader, and every other text delivers what it is to deliver.

Design notes: a message is described on its members, with a missing member standing for an
empty one, since the reader treats the two alike.  What a text is to deliver does not depend on
how deep a reader follows it, so the members are those of `Json.IsForm`, and the limit of the
reader comes in with `dispatch` alone.  The parts of a message are read in three stages, params,
result and topics, and each is malformed in just one way, which `optionalMembers_eq_ok_iff` and
`items_topics_eq_ok_iff` state.
-/
import LedgerAbi.Proofs.Json.Nesting
import LedgerAbi.Proofs.Json.Values
import LedgerAbi.Rpc.Message
import Mathlib.Data.List.ReduceOption

namespace LedgerAbi.Rpc

/-! ### Messages -/

/-- Nothing, an empty value or an object. -/
def IsOptionalObject (v : Value) : Prop := v.isTruthy = false ∨ ∃ members, v = .dict members

/-- Nothing, an empty value, or a list, a text or an object. -/
def IsWalkable (v : Value) : Prop :=
  v.isTruthy = false ∨ (∃ items, v = .list items) ∨ (∃ t, v = .text t) ∨ ∃ members, v = .dict members

/-- The members of an object; anything else has none. -/
def membersOf : Value → Members
  | .dict members => members
  | _ => []

/-- The items of a list, the code points of a text, the keys of an object; anything else has none. -/
def partsOf : Value → List Value
  | .list items => items
  | .text t => t.map fun c => .text [c]
  | .dict members => members.map fun (key, _) => .text key
  | _ => []

/-- The value itself, unless it is the missing one. -/
def present? : Value → Option Value
  | .none => none
  | v => some v

/-- The result inside the members of a message. -/
def resultOf (members : Members) : Value :=
  (membersOf (members.getD "params" .none)).getD "result" .none

/-- The log inside the members of a message. -/
def logOf (members : Members) : Value := (membersOf (resultOf members)).getD "Log" .none

/-- The members of an object have the shape of a message. -/
structure IsMessage (members : Members) : Prop where
  params : IsOptionalObject (members.getD "params" .none)
  result : IsOptionalObject (resultOf members)
  log : logOf members = .none ∨
    ∃ fields, logOf members = .dict fields ∧ IsWalkable (Members.getD fields "Topics" .none)

/-- The log that the members of an object describe. -/
def recordOf (fields : Members) : LogRecord where
  address := fields.getD "Address" (.text [])
  topics := .list (partsOf (fields.getD "Topics" .none))
  data := (fields.getD "Data" .none).truthy?.getD (.text [])

/-- What a text is to deliver. -/
inductive Delivers (raw : Text) : Option LogDelivery → Prop where
  /-- A failure for a text that reports an error. -/
  | reported {members : Members} {error : Value} {cause : TransportFailure}
    (hform : Json.IsForm raw (.dict members)) (herror : members.get? "error" = some error)
    (hcause : cause.isEnded = false) : Delivers raw (some (.error (.transport cause)))
  /-- A failure for a text that is no message. -/
  | malformed {cause : TransportFailure}
    (hshape : ¬ ∃ members, Json.IsForm raw (.dict members) ∧ IsMessage members)
    (hcause : cause.isEnded = false) : Delivers raw (some (.error (.transport cause)))
  /-- The log of a message that has one. -/
  | log {members fields : Members} (hform : Json.IsForm raw (.dict members))
    (herror : members.get? "error" = none) (hshape : IsMessage members)
    (hlog : logOf members = .dict fields) : Delivers raw (some (.ok (recordOf fields)))
  /-- Nothing for a message without a log. -/
  | nothing {members : Members} (hform : Json.IsForm raw (.dict members))
    (herror : members.get? "error" = none) (hshape : IsMessage members)
    (hlog : logOf members = .none) : Delivers raw none

/-! ### Reading -/

theorem membersOf_eq_nil {v : Value} (h : v.isTruthy = false) : membersOf v = [] := by
  cases v with
  | dict members =>
    cases members with
    | nil => rfl
    | cons entry rest => cases h
  | _ => rfl

/-- An optional part is read unless it is something else than an object. -/
theorem optionalMembers_eq_ok_iff {v : Value} {members : Members} :
    optionalMembers v = .ok members ↔ IsOptionalObject v ∧ members = membersOf v := by
  unfold optionalMembers
  split
  · next entries =>
    constructor
    · intro h
      cases h
      exact ⟨Or.inr ⟨_, rfl⟩, rfl⟩
    · rintro ⟨-, rfl⟩
      rfl
  · next hdict =>
    split
    · next htruthy =>
      constructor
      · intro h
        cases h
      · rintro ⟨hfalsy | ⟨entries, rfl⟩, -⟩
        · cases htruthy.symm.trans hfalsy
        · exact absurd rfl (hdict entries)
    · next hfalsy =>
      rw [Bool.not_eq_true] at hfalsy
      rw [membersOf_eq_nil hfalsy]
      constructor
      · intro h
        cases h
        exact ⟨Or.inl hfalsy, rfl⟩
      · rintro ⟨-, rfl⟩
        rfl

theorem present?_eq_none_iff {v : Value} : present? v = none ↔ v = .none := by
  cases v <;> simp [present?]

theorem present?_eq_some_iff {v w : Value} : present? v = some w ↔ v = w ∧ w ≠ .none := by
  cases v with
  | none => simp +contextual [present?, eq_comm]
  | _ =>
    constructor
    · intro h
      cases h
      exact ⟨rfl, nofun⟩
    · rintro ⟨rfl, -⟩
      rfl

/-- The log of a message is read if its parts are. -/
theorem streamedLog_eq_ok_iff {members : Members} {log : Option Value} :
    streamedLog members = .ok log ↔ IsOptionalObject (members.getD "params" .none) ∧
      IsOptionalObject (resultOf members) ∧ log = present? (logOf members) := by
  constructor
  · intro h
    obtain ⟨_, hread, h⟩ := Except.bind_eq_ok_iff.mp h
    obtain ⟨hparams, rfl⟩ := optionalMembers_eq_ok_iff.mp hread
    obtain ⟨_, hread', h⟩ := Except.bind_eq_ok_iff.mp h
    obtain ⟨hresult, rfl⟩ := optionalMembers_eq_ok_iff.mp hread'
    refine ⟨hparams, hresult, ?_⟩
    split at h
    · next hlog =>
      cases h
      rw [show logOf members = .none from hlog]
      rfl
    · next hlog =>
      cases h
      exact (present?_eq_some_iff.mpr ⟨rfl, hlog⟩).symm
  · rintro ⟨hparams, hresult, rfl⟩
    have hread : streamedLog members = match logOf members with
        | .none => .ok none
        | log => .ok (some log) := by
      rw [streamedLog, optionalMembers_eq_ok_iff.mpr ⟨hparams, rfl⟩]
      show (optionalMembers (resultOf members) >>= _) = _
      rw [optionalMembers_eq_ok_iff.mpr ⟨hresult, rfl⟩]
      rfl
    rw [hread]
    cases logOf members <;> rfl

theorem bind_truthy? (members : Members) (key : Text) :
    (members.get? key).bind Value.truthy? = (members.getD key .none).truthy? := by
  rw [Members.getD]
  cases members.get? key <;> rfl

theorem partsOf_eq_nil {v : Value} (h : v.isTruthy = false) : partsOf v = [] := by
  cases v with
  | list items =>
    cases items with
    | nil => rfl
    | cons item rest => cases h
  | text t =>
    cases t with
    | nil => rfl
    | cons c rest => cases h
  | dict members =>
    cases members with
    | nil => rfl
    | cons entry rest => cases h
  | _ => rfl

/-- The topics of a log are read if one can walk through them. -/
theorem items_topics_eq_ok_iff {v : Value} (hv : Json.IsValue v) {topics : List Value} :
    (v.truthy?.getD (.list [])).items = .ok topics ↔ IsWalkable v ∧ topics = partsOf v := by
  rw [Value.truthy?]
  split
  · next htruthy =>
    rw [Option.getD_some]
    constructor
    · intro h
      cases hv with
      | list => cases h; exact ⟨Or.inr (Or.inl ⟨_, rfl⟩), rfl⟩
      | text => cases h; exact ⟨Or.inr (Or.inr (Or.inl ⟨_, rfl⟩)), rfl⟩
      | dict => cases h; exact ⟨Or.inr (Or.inr (Or.inr ⟨_, rfl⟩)), rfl⟩
      | _ => cases h
    · rintro ⟨hfalsy | ⟨items, rfl⟩ | ⟨t, rfl⟩ | ⟨members, rfl⟩, rfl⟩
      · cases htruthy.symm.trans hfalsy
      · rfl
      · rfl
      · rfl
  · next hfalsy =>
    rw [Bool.not_eq_true] at hfalsy
    rw [partsOf_eq_nil hfalsy]
    constructor
    · intro h
      cases h
      exact ⟨Or.inl hfalsy, rfl⟩
    · rintro ⟨-, rfl⟩
      rfl

/-- The members of an object are read as a log if its topics are. -/
theorem parseLogRecord_eq_ok_iff {fields : Members} (hfields : Json.IsValue (.dict fields))
    {record : LogRecord} :
    parseLogRecord (.dict fields) = .ok record ↔
      IsWalkable (fields.getD "Topics" .none) ∧ record = recordOf fields := by
  have hread : parseLogRecord (.dict fields) = (do
      let topics ← ((fields.getD "Topics" .none).truthy?.getD (.list [])).items
      .ok { recordOf fields with topics := .list topics }) := by
    rw [← bind_truthy?, parseLogRecord, recordOf, ← bind_truthy? fields "Data"]
    rfl
  rw [hread, Except.bind_eq_ok_iff]
  constructor
  · rintro ⟨topics, htopics, h⟩
    obtain ⟨hwalkable, rfl⟩ := (items_topics_eq_ok_iff (hfields.getD _ .none)).mp htopics
    cases h
    exact ⟨hwalkable, rfl⟩
  · rintro ⟨hwalkable, rfl⟩
    exact ⟨_, (items_topics_eq_ok_iff (hfields.getD _ .none)).mpr ⟨hwalkable, rfl⟩, rfl⟩

/-- Only an object is read as a log. -/
theorem exists_fields_of_parseLogRecord {log : Value} {record : LogRecord}
    (h : parseLogRecord log = .ok record) : ∃ fields, log = .dict fields := by
  obtain ⟨fields, hfields, -⟩ := Except.bind_eq_ok_iff.mp h
  cases log with
  | dict fields => exact ⟨fields, rfl⟩
  | _ => cases hfields

/-! ### Delivering -/

theorem isValue_membersOf {v : Value} (hv : Json.IsValue v) : Json.IsValue (.dict (membersOf v)) := by
  cases hv with
  | dict h => exact .dict h
  | _ => exact .dict (List.forall_mem_nil _)

theorem isValue_logOf {members : Members} (h : Json.IsValue (.dict members)) :
    Json.IsValue (logOf members) := by
  have hparams := isValue_membersOf (h.getD "params" .none)
  exact (isValue_membersOf (hparams.getD "result" .none)).getD "Log" .none

/-- An object delivers what a text of it is to deliver. -/
theorem delivers_deliveryOfMembers {raw : Text} {members : Members}
    (hform : Json.IsForm raw (.dict members)) :
    Delivers raw (deliveryOfMembers (.error (.transport (.malformedMessage raw))) members) := by
  have hvalue : Json.IsValue (.dict members) :=
    hform.elim fun _ hparse => Json.isValue_of_parse hparse
  -- the text is the form of these members only
  have malformed (hshape : ¬ IsMessage members) :
      Delivers raw (some (.error (.transport (.malformedMessage raw)))) := by
    refine .malformed ?_ rfl
    rintro ⟨_, hform', hmessage⟩
    cases hform.unique hform'
    exact hshape hmessage
  rw [deliveryOfMembers]
  split
  · next error herror => exact .reported hform herror rfl
  · next herror =>
    split
    · next e hlog =>
      refine malformed fun hmessage => ?_
      cases hlog.symm.trans (streamedLog_eq_ok_iff.mpr ⟨hmessage.params, hmessage.result, rfl⟩)
    · next hlog =>
      obtain ⟨hparams, hresult, hnone⟩ := streamedLog_eq_ok_iff.mp hlog
      have hmissing := present?_eq_none_iff.mp hnone.symm
      exact .nothing hform herror ⟨hparams, hresult, Or.inl hmissing⟩ hmissing
    · next log hlog =>
      obtain ⟨hparams, hresult, hsome⟩ := streamedLog_eq_ok_iff.mp hlog
      obtain ⟨rfl, hpresent⟩ := present?_eq_some_iff.mp hsome.symm
      split
      · next record hrecord =>
        obtain ⟨fields, hfields⟩ := exists_fields_of_parseLogRecord hrecord
        rw [hfields, parseLogRecord_eq_ok_iff (hfields ▸ isValue_logOf hvalue)] at hrecord
        obtain ⟨hwalkable, rfl⟩ := hrecord
        exact .log hform herror ⟨hparams, hresult, Or.inr ⟨fields, hfields, hwalkable⟩⟩ hfields
      · next e hrecord =>
        refine malformed fun hmessage => ?_
        obtain hmissing | ⟨fields, hfields, hwalkable⟩ := hmessage.log
        · exact hpresent hmissing
        · have hread := (parseLogRecord_eq_ok_iff (hfields ▸ isValue_logOf hvalue)).mpr
            ⟨hwalkable, rfl⟩
          rw [hfields, hread] at hrecord
          cases hrecord

theorem dispatch_eq_error_iff {nesting : Nat} {raw : Text} {cause : Fault} :
    dispatch nesting raw = .error cause ↔ Json.IsTooDeep nesting raw ∧ cause = .tooDeep := by
  rw [dispatch]
  split
  · next hdeep =>
    constructor
    · intro h
      cases h
      exact ⟨hdeep, rfl⟩
    · rintro ⟨-, rfl⟩
      rfl
  · next members hparse =>
    exact iff_of_false (fun h => by cases h) fun h => Json.not_isTooDeep_of_parse hparse h.1
  · next hkept _ => exact iff_of_false (fun h => by cases h) fun h => hkept h.1

/-- **Every text delivers what it says**, unless it is nested too deep. A text that reports an error, or
that is no message, delivers one failure, which does not end the stream; a message delivers its log, if
it has one, and otherwise nothing. -/
theorem delivers_of_dispatch {nesting : Nat} {raw : Text} {told : Option LogDelivery}
    (h : dispatch nesting raw = .ok told) : Delivers raw told := by
  rw [dispatch] at h
  split at h
  · cases h
  · next members hparse =>
    cases h
    exact delivers_deliveryOfMembers ⟨nesting, hparse⟩
  · next hkept hother =>
    cases h
    refine .malformed ?_ rfl
    rintro ⟨members, hform, -⟩
    exact hother members ((Json.isForm_iff hkept).mp hform)

/-- What a text is to deliver is settled, but for the words of a failure. -/
theorem Delivers.agree {raw : Text} {told told' : Option LogDelivery} (h : Delivers raw told)
    (h' : Delivers raw told') :
    told.isSome = told'.isSome ∧ ∀ record, told = some (.ok record) → told' = some (.ok record) := by
  cases h with
  | reported hform herror hcause =>
    cases h' with
    | reported => exact ⟨rfl, nofun⟩
    | malformed => exact ⟨rfl, nofun⟩
    | log hform' herror' =>
      cases hform.unique hform'
      cases herror.symm.trans herror'
    | nothing hform' herror' =>
      cases hform.unique hform'
      cases herror.symm.trans herror'
  | malformed hshape hcause =>
    cases h' with
    | reported => exact ⟨rfl, nofun⟩
    | malformed => exact ⟨rfl, nofun⟩
    | log hform' _ hshape' => exact absurd ⟨_, hform', hshape'⟩ hshape
    | nothing hform' _ hshape' => exact absurd ⟨_, hform', hshape'⟩ hshape
  | log hform herror hshape hlog =>
    cases h' with
    | reported hform' herror' =>
      cases hform.unique hform'
      cases herror.symm.trans herror'
    | malformed hshape' => exact absurd ⟨_, hform, hshape⟩ hshape'
    | log hform' _ _ hlog' =>
      cases hform.unique hform'
      cases hlog.symm.trans hlog'
      exact ⟨rfl, fun _ hrecord => hrecord⟩
    | nothing hform' _ _ hlog' =>
      cases hform.unique hform'
      cases hlog.symm.trans hlog'
  | nothing hform herror hshape hlog =>
    cases h' with
    | reported hform' herror' =>
      cases hform.unique hform'
      cases herror.symm.trans herror'
    | malformed hshape' => exact absurd ⟨_, hform, hshape⟩ hshape'
    | log hform' _ _ hlog' =>
      cases hform.unique hform'
      cases hlog.symm.trans hlog'
    | nothing => exact ⟨rfl, nofun⟩

/-! ### Texts in a row -/

/-- What a reader delivers of a text. A text that stops it delivers nothing. -/
def delivery? (nesting : Nat) (raw : Text) : Option LogDelivery :=
  match dispatch nesting raw with
  | .ok told => told
  | .error _ => none

theorem delivers_delivery? {nesting : Nat} {raw : Text} (h : ¬ Json.IsTooDeep nesting raw) :
    Delivers raw (delivery? nesting raw) := by
  rw [delivery?]
  cases hdispatch : dispatch nesting raw with
  | ok told => exact delivers_of_dispatch hdispatch
  | error cause => exact absurd (dispatch_eq_error_iff.mp hdispatch).1 h

theorem reduceOption_map_delivery? (nesting : Nat) (raws : List Text) :
    (raws.map (delivery? nesting)).reduceOption = raws.filterMap (delivery? nesting) :=
  List.filterMap_map

/-- There is one number of deliveries that texts are to make. -/
theorem length_reduceOption_eq {raws : List Text} {told told' : List (Option LogDelivery)}
    (h : List.Forall₂ Delivers raws told) (h' : List.Forall₂ Delivers raws told') :
    told.reduceOption.length = told'.reduceOption.length := by
  induction h generalizing told' with
  | nil =>
    cases h'
    rfl
  | @cons raw owed raws told hraw _ ih =>
    cases h' with
    | @cons _ owed' _ told' hraw' hrest' =>
      have hsame := (hraw.agree hraw').1
      have hrest := ih hrest'
      cases owed with
      | none =>
        cases owed' with
        | none => exact hrest
        | some d' => cases hsame
      | some d =>
        cases owed' with
        | none => cases hsame
        | some d' =>
          rw [List.reduceOption_cons_of_some, List.reduceOption_cons_of_some, List.length_cons,
            List.length_cons, hrest]

/-- Texts that are each to deliver nothing are to deliver nothing together. -/
theorem forall₂_delivers_none {raws : List Text} (h : ∀ raw ∈ raws, Delivers raw none) :
    List.Forall₂ Delivers raws (List.replicate raws.length none) := by
  rw [← List.map_const', List.forall₂_map_right_iff, List.forall₂_same]
  exact h

theorem reduceOption_eq_nil_iff {raws : List Text} {told : List (Option LogDelivery)}
    (h : List.Forall₂ Delivers raws told) :
    told.reduceOption = [] ↔ ∀ raw ∈ raws, Delivers raw none := by
  constructor
  · intro hnil raw hraw
    obtain ⟨n, rfl⟩ := (List.reduceOption_eq_nil_iff told).mp hnil
    obtain ⟨owed, howed, hdelivers⟩ := List.exists_of_forall₂ h hraw
    rwa [List.eq_of_mem_replicate howed] at hdelivers
  · intro hnone
    have hlength := length_reduceOption_eq h (forall₂_delivers_none hnone)
    rw [List.reduceOption_replicate_none] at hlength
    exact List.eq_nil_of_length_eq_zero hlength

end LedgerAbi.Rpc
