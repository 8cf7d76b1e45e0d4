/-
The texts of a socket on their way to the consumer of a subscription.

* `Entry.Drops` — a log that can neither be decoded nor be reported as one that fails to;
* `Entry.IsTextEvent.drops_iff` — which logs these are: those with a field of the wrong kind that is
  looked at;
* `Subscription.play` — an open subscription over the texts of its socket and the iteration
  steps of its consumer;
* `Subscription.LosesNothing` — every text that reports an error, is no message or holds a
  log has led to one delivery, in order;
* `losesNothing_iff` — nothing is lost just when no log is dropped, and no text that is nested
  too deep leaves a delivery owed.

Design notes: a delivery is either handed to the consumer or waits in the queue for the next
iteration step.  A step of the machine moves deliveries from one place to the other and adds
those that arrive (`IsRunning.step`), so that after a run the two together hold what was
there before and what arrived, in order.  What is passed on is less than what the texts owe by
the logs that are dropped and by what was not heard.
-/
import LedgerAbi.Proofs.Rpc.Stream
import LedgerAbi.Proofs.Subscription.Journal

namespace LedgerAbi

/-! ### Logs that are dropped -/

/-- A log fails otherwise than by failing to decode. -/
def Entry.Drops (e : Entry) (record : LogRecord) : Prop :=
  ∃ error, decodeLog e record = .error error ∧ ∀ cause, error ≠ .decode cause

section Drops

variable {e : Entry} {record : LogRecord} {fields : List Value}

theorem Value.wireHex_eq_error {v : Value} (h : ¬ v.IsWire) :
    v.wireHex = .error (.fault .wrongKind) := by
  cases v with
  | text t => exact absurd (Or.inr ⟨t, rfl⟩) h
  | bytes b => exact absurd (Or.inl ⟨b, rfl⟩) h
  | _ => rfl

/-- Topics are written out one after the other, up to the first that has no wire form. -/
theorem mapM_wireHex_eq_error {v : Value} (hmem : v ∈ fields) (hv : ¬ v.IsWire) :
    fields.mapM Value.wireHex = .error (.fault .wrongKind) := by
  induction fields with
  | nil => cases hmem
  | cons first rest ih =>
    rw [List.mapM_cons]
    by_cases hfirst : first.IsWire
    · obtain ⟨t, ht⟩ := Value.exists_wireHex hfirst
      rcases List.mem_cons.mp hmem with rfl | hrest
      · exact absurd hfirst hv
      · rw [ht, ih hrest]
        rfl
    · rw [Value.wireHex_eq_error hfirst]
      rfl

/-- The address of a log is looked at last. -/
theorem decodeLog_address (e : Entry) (record : LogRecord) :
    decodeLog e record = (do
      let event ← decodeLog e { record with address := .text [] }
      let address ← record.address.wireHex
      .ok { event with address := address }) := by
  unfold decodeLog
  dsimp only
  rw [bind_assoc]
  refine bind_congr fun data => ?_
  rw [bind_assoc]
  refine bind_congr fun items => ?_
  rw [bind_assoc]
  refine bind_congr fun topics => ?_
  split
  · rw [bind_assoc]
    rfl
  split
  · rfl
  rw [bind_assoc]
  refine bind_congr fun fromTopics => ?_
  rw [bind_assoc]
  refine bind_congr fun fromData => ?_
  split
  · rfl
  rw [bind_assoc]
  rfl

theorem Entry.drops_of_data (hdata : ¬ record.data.IsWire) (htruthy : record.data.isTruthy = true) :
    e.Drops record := by
  refine ⟨.fault .wrongKind, ?_, fun cause h => by cases h⟩
  rw [decodeLog, Value.truthy?, if_pos htruthy, Option.getD_some, Value.wireHex_eq_error hdata]
  rfl

theorem Entry.drops_of_topic (hdata : record.data.IsWire) (hfields : record.topics = .list fields)
    {v : Value} (hmem : v ∈ fields) (hv : ¬ v.IsWire) : e.Drops record := by
  obtain ⟨data, hdata'⟩ := Value.exists_wireHex hdata
  refine ⟨.fault .wrongKind, ?_, fun cause h => by cases h⟩
  rw [decodeLog, Value.wireHex_truthy? hdata, hdata', hfields]
  simp only [Value.items, mapM_wireHex_eq_error hmem hv, bind, Except.bind]

/-- **The logs that are dropped.** A log of an event with text names is dropped if its data or one of
its topics is neither bytes nor a text, or if that holds of its address and it would decode with
another one. -/
theorem Entry.IsTextEvent.drops_iff (he : e.IsTextEvent) (hfields : record.topics = .list fields)
    (hread : record.data.IsWire ∨ record.data.isTruthy = true) :
    e.Drops record ↔ ¬ record.data.IsWire ∨ (∃ v ∈ fields, ¬ v.IsWire) ∨
      (¬ record.address.IsWire ∧
        ∃ event, decodeLog e { record with address := .text [] } = .ok event) := by
  by_cases hdata : record.data.IsWire
  · by_cases htopics : ∃ v ∈ fields, ¬ v.IsWire
    · obtain ⟨v, hmem, hv⟩ := htopics
      exact iff_of_true (drops_of_topic hdata hfields hmem hv) (Or.inr (Or.inl ⟨v, hmem, hv⟩))
    · -- the fields before the address can be read, so a failure on the way to it is one to decode
      replace htopics : ∀ v ∈ fields, v.IsWire :=
        fun v hmem => by_contra fun hv => htopics ⟨v, hmem, hv⟩
      have hbefore {address : Value} (haddress : address.IsWire) {error : Error}
          (h : decodeLog e { record with address := address } = .error error) :
          ∃ cause, error = .decode cause := by
        have hwire : ({ record with address := address } : LogRecord).IsWire :=
          ⟨fields, hfields, List.forall_mem_cons.mpr
            ⟨haddress, List.forall_mem_cons.mpr ⟨hdata, htopics⟩⟩⟩
        exact Subscription.exists_cause_of_isWire he hwire h
      have hrest : ¬ (¬ record.data.IsWire ∨ ∃ v ∈ fields, ¬ v.IsWire) := by
        rintro (h | ⟨v, hmem, hv⟩)
        · exact h hdata
        · exact hv (htopics v hmem)
      constructor
      · rintro ⟨error, herror, hother⟩
        by_cases haddress : record.address.IsWire
        · obtain ⟨cause, rfl⟩ := hbefore haddress herror
          exact absurd rfl (hother cause)
        · refine Or.inr (Or.inr ⟨haddress, ?_⟩)
          cases hbase : decodeLog e { record with address := .text [] } with
          | ok event => exact ⟨event, rfl⟩
          | error cause =>
            rw [decodeLog_address, hbase] at herror
            cases herror
            obtain ⟨cause, rfl⟩ := hbefore (Or.inr ⟨[], rfl⟩) hbase
            exact absurd rfl (hother cause)
      · rintro (h | h | ⟨haddress, event, hevent⟩)
        · exact absurd (Or.inl h) hrest
        · exact absurd (Or.inr h) hrest
        · refine ⟨.fault .wrongKind, ?_, fun cause h => by cases h⟩
          rw [decodeLog_address, hevent, Value.wireHex_eq_error haddress]
          rfl
  · exact iff_of_true (drops_of_data hdata (hread.resolve_left hdata)) (Or.inl hdata)

end Drops

/-! ### Moves -/

/-- What the socket of an open subscription and its consumer do. -/
inductive Move where
  /-- The socket yields a text. -/
  | text (raw : Text)
  /-- The consumer takes an iteration step. -/
  | next (operation : Nat)
  /-- An iteration step that waits looks at the queue again. -/
  | resume (operation : Nat)

/-- The text that the socket yields. -/
def Move.text? : Move → Option Text
  | .text raw => some raw
  | _ => none

/-- The stream after a move, and the signals of the move: for a text, what the stream delivers. -/
def Move.step (stream : Rpc.Stream) : Move → Rpc.Stream × List Signal
  | .text raw =>
    let stepped := stream.step (.frame (.text raw))
    (stepped.1, stepped.2.map Signal.log)
  | .next operation => (stream, [.next operation])
  | .resume operation => (stream, [.resume operation])

/-- The signals of moves one after the other. -/
def Move.signals : Rpc.Stream → List Move → List Signal
  | _, [] => []
  | stream, move :: rest => (move.step stream).2 ++ signals (move.step stream).1 rest

/-- What is handed to the consumer: an invocation of the callback, or else the end of an iteration
step. -/
def Output.handed? (hasCallback : Bool) : Output → Option EventDelivery
  | .callback d => some d
  | .completed _ (.event event) => if hasCallback then none else some (.ok event)
  | .completed _ (.failed e) => if hasCallback then none else some (.error e)
  | _ => none

def QueueItem.delivery? : QueueItem → Option EventDelivery
  | .delivery d => some d
  | .endMark => none

namespace Subscription

variable {s t : Subscription}

/-- The deliveries that wait for iteration steps. -/
def queued (s : Subscription) : List EventDelivery :=
  if s.hasCallback then [] else s.queue.filterMap QueueItem.delivery?

/-- A subscription and all its outputs over some moves, with a stream that has just been opened. -/
def play (nesting : Nat) (s : Subscription) (moves : List Move) : Subscription × List Output :=
  s.run (Move.signals (.opened nesting) moves)

/-- What a subscription hands to its consumer over some moves. -/
def handed (nesting : Nat) (s : Subscription) (moves : List Move) : List EventDelivery :=
  (s.play nesting moves).2.filterMap (Output.handed? s.hasCallback)

/-- Every text that owes a delivery has led to one, which was handed over or waits to be, in order. -/
def LosesNothing (nesting : Nat) (s : Subscription) (moves : List Move) : Prop :=
  ∃ told, List.Forall₂ Rpc.Delivers (moves.filterMap Move.text?) told ∧
    s.handed nesting moves ++ (s.play nesting moves).1.queued =
      s.queued ++ told.reduceOption.map (delivery s.event)

/-- A subscription is open, and its stream has not ended. -/
structure IsRunning (s : Subscription) : Prop where
  opened : s.phase = .opened
  endless : QueueItem.endMark ∉ s.queue

/-- What a subscription passes on of what arrives. -/
def passes (s : Subscription) (d : Rpc.LogDelivery) : Option EventDelivery := (s.receive d).toOption

/-- What the transport passes with a signal. -/
def arrival? : Signal → Option Rpc.LogDelivery
  | .log d => some d
  | _ => none

/-- A signal that leaves a running subscription running. -/
def IsOrdinary : Signal → Prop
  | .log d => isEnd d = false
  | .next _ => True
  | .resume _ => True
  | _ => False

/-- An iteration step that takes the first delivery hands it over. -/
theorem IsRunning.takeItem (h : s.IsRunning) (operation : Nat) :
    (s.takeItem operation).1.IsRunning ∧
      (s.takeItem operation).2.filterMap (Output.handed? s.hasCallback) ++
        (s.takeItem operation).1.queued = s.queued := by
  match hqueue : s.queue with
  | [] =>
    rw [takeItem_nil hqueue]
    exact ⟨⟨h.opened, h.endless⟩, rfl⟩
  | .delivery d :: rest =>
    rw [takeItem_delivery hqueue]
    have hendless : QueueItem.endMark ∉ rest := fun hmem =>
      h.endless (hqueue ▸ List.mem_cons_of_mem _ hmem)
    refine ⟨⟨h.opened, hendless⟩, ?_⟩
    rw [queued, queued, hqueue]
    cases s.hasCallback <;> cases d <;> rfl
  | .endMark :: rest => exact absurd (hqueue ▸ List.mem_cons_self) h.endless

theorem queued_of_callback (hcallback : s.hasCallback = true) : s.queued = [] := if_pos hcallback

theorem queued_enqueue (hcallback : s.hasCallback = false) (d : EventDelivery) :
    (s.enqueue (.delivery d)).queued = s.queued ++ [d] := by
  have hlater : (s.enqueue (.delivery d)).hasCallback = false := hcallback
  rw [queued, queued, hcallback, hlater]
  exact List.filterMap_append

theorem IsRunning.handleLog_error (h : s.IsRunning) {d : Rpc.LogDelivery} {e : Error}
    (hreceive : s.receive d = .error e) : s.handleLog d = (s, [.raised e]) := by
  rw [Subscription.handleLog, h.opened, hreceive]

theorem IsRunning.handleLog_ok (h : s.IsRunning) {d : Rpc.LogDelivery} (hd : isEnd d = false)
    {delivery : EventDelivery} (hreceive : s.receive d = .ok delivery) :
    s.handleLog d =
      if s.hasCallback then (s, [.callback delivery]) else (s.enqueue (.delivery delivery), []) := by
  rw [Subscription.handleLog, h.opened, hreceive]
  simp only [hd, Bool.false_eq_true, if_false]

/-- What arrives is handed over at once, or put behind what waits already. -/
theorem IsRunning.handleLog (h : s.IsRunning) {d : Rpc.LogDelivery} (hd : isEnd d = false) :
    (s.handleLog d).1.IsRunning ∧
      (s.handleLog d).2.filterMap (Output.handed? s.hasCallback) ++ (s.handleLog d).1.queued =
        s.queued ++ (s.passes d).toList := by
  cases hreceive : s.receive d with
  | error e =>
    rw [h.handleLog_error hreceive, passes, hreceive]
    exact ⟨h, (List.append_nil _).symm⟩
  | ok delivery =>
    rw [h.handleLog_ok hd hreceive, passes, hreceive]
    cases hcallback : s.hasCallback with
    | true =>
      refine ⟨h, ?_⟩
      show [delivery] ++ s.queued = s.queued ++ [delivery]
      rw [queued_of_callback hcallback]
      rfl
    | false =>
      refine ⟨⟨h.opened, fun hmem => ?_⟩, queued_enqueue hcallback delivery⟩
      rcases List.mem_append.mp hmem with hmem | hmem
      · exact h.endless hmem
      · cases List.mem_singleton.mp hmem

/-- What a signal hands over and what it leaves in the queue is what was there and what arrives. -/
theorem IsRunning.step (h : s.IsRunning) {signal : Signal} (hsignal : IsOrdinary signal) :
    (s.step signal).1.IsRunning ∧
      (s.step signal).2.filterMap (Output.handed? s.hasCallback) ++ (s.step signal).1.queued =
        s.queued ++ ((arrival? signal).bind s.passes).toList := by
  have nothing : s.queued = s.queued ++ ((none : Option Rpc.LogDelivery).bind s.passes).toList :=
    (List.append_nil _).symm
  cases signal with
  | log d => exact h.handleLog hsignal
  | next operation =>
    simp only [Subscription.step, h.opened]
    split
    · next hcallback =>
      rw [hcallback]
      exact ⟨h, nothing⟩
    · exact nothing ▸ h.takeItem operation
  | resume operation =>
    simp only [Subscription.step]
    split
    · have hwake : (s.wake operation).IsRunning := ⟨h.opened, h.endless⟩
      exact nothing ▸ hwake.takeItem operation
    · exact ⟨h, nothing⟩
  | _ => cases hsignal

/-! ### Runs -/

theorem passes_of_event (h : t.event = s.event) : t.passes = s.passes := by
  funext d
  simp only [passes, receive, h]

/-- Over a run nothing is lost or added on the way from what arrives to what is handed over. -/
theorem IsRunning.run (h : s.IsRunning) {signals : List Signal}
    (hsignals : ∀ signal ∈ signals, IsOrdinary signal) :
    (s.run signals).2.filterMap (Output.handed? s.hasCallback) ++ (s.run signals).1.queued =
      s.queued ++ (signals.filterMap arrival?).filterMap s.passes := by
  induction signals generalizing s with
  | nil => exact (List.append_nil _).symm
  | cons signal rest ih =>
    obtain ⟨hsignal, hrest⟩ := List.forall_mem_cons.mp hsignals
    obtain ⟨hnext, hstep⟩ := h.step hsignal
    obtain ⟨hevent, hcallback⟩ := (s.transition signal).settings_eq
    have hlater := ih hnext hrest
    rw [hcallback, passes_of_event hevent] at hlater
    show ((s.step signal).2 ++ ((s.step signal).1.run rest).2).filterMap _ ++
      ((s.step signal).1.run rest).1.queued = _
    rw [List.filterMap_append, List.append_assoc, hlater, ← List.append_assoc, hstep,
      List.append_assoc, List.filterMap_cons]
    cases arrival? signal with
    | none => rfl
    | some d =>
      rw [List.filterMap_cons, Option.bind_some]
      cases s.passes d <;> rfl

/-- The texts of a socket never end its stream. -/
theorem isEnd_of_delivers {raw : Text} {d : Rpc.LogDelivery} (h : Rpc.Delivers raw (some d)) :
    isEnd d = false := by
  cases h with
  | reported _ _ hcause => exact hcause
  | malformed _ hcause => exact hcause
  | log => rfl

theorem isOrdinary_of_mem_step {stream : Rpc.Stream} {move : Move} {signal : Signal}
    (h : signal ∈ (move.step stream).2) : IsOrdinary signal := by
  cases move with
  | text raw =>
    obtain ⟨d, hd, rfl⟩ := List.mem_map.mp h
    exact isEnd_of_delivers (Rpc.Stream.delivers_of_mem_step hd)
  | next operation =>
    rw [List.mem_singleton.mp h]
    trivial
  | resume operation =>
    rw [List.mem_singleton.mp h]
    trivial

theorem isOrdinary_of_mem_signals {stream : Rpc.Stream} {moves : List Move} {signal : Signal}
    (h : signal ∈ Move.signals stream moves) : IsOrdinary signal := by
  induction moves generalizing stream with
  | nil => cases h
  | cons move rest ih =>
    rcases List.mem_append.mp h with h | h
    · exact isOrdinary_of_mem_step h
    · exact ih h

/-- Nothing arrives once the reader of the stream has ended. -/
theorem filterMap_arrival?_ended {stream : Rpc.Stream} (h : stream.reader ≠ .reading)
    (moves : List Move) : (Move.signals stream moves).filterMap arrival? = [] := by
  induction moves generalizing stream with
  | nil => rfl
  | cons move rest ih =>
    rw [Move.signals, List.filterMap_append]
    cases move with
    | text raw =>
      obtain ⟨hnext, hnothing⟩ := Rpc.Stream.step_ended h (.frame (.text raw))
      rw [Move.step, hnothing]
      exact ih hnext
    | next operation => exact ih h
    | resume operation => exact ih h

/-- What arrives is what the heard texts deliver. -/
theorem filterMap_arrival?_signals (nesting : Nat) (moves : List Move) :
    (Move.signals (.opened nesting) moves).filterMap arrival? =
      (Rpc.heard nesting (moves.filterMap Move.text?)).filterMap (Rpc.delivery? nesting) := by
  induction moves with
  | nil => rfl
  | cons move rest ih =>
    rw [Move.signals, List.filterMap_append]
    cases move with
    | text raw =>
      rw [List.filterMap_cons_some (show Move.text? (.text raw) = some raw from rfl), Move.step]
      by_cases hdeep : Json.IsTooDeep nesting raw
      · rw [Rpc.Stream.step_text_of_isTooDeep hdeep, Rpc.heard_cons_of_isTooDeep hdeep]
        exact filterMap_arrival?_ended (fun h => by cases h) rest
      · rw [Rpc.Stream.step_text hdeep, Rpc.heard_cons hdeep, List.filterMap_cons, ih]
        cases Rpc.delivery? nesting raw <;> rfl
    | next operation => exact ih
    | resume operation => exact ih

/-- What is handed over in the end, or waits to be, is what waited before and what is passed on of what
the heard texts deliver. -/
theorem IsRunning.handed_append (h : s.IsRunning) (nesting : Nat) (moves : List Move) :
    s.handed nesting moves ++ (s.play nesting moves).1.queued =
      s.queued ++ ((Rpc.heard nesting (moves.filterMap Move.text?)).filterMap
        (Rpc.delivery? nesting)).filterMap s.passes := by
  rw [← filterMap_arrival?_signals]
  exact h.run fun signal hmem => isOrdinary_of_mem_signals hmem

/-! ### What is lost -/

theorem passes_eq_some {d : Rpc.LogDelivery}
    (hkept : ∀ record, d = .ok record → ¬ s.event.entry.Drops record) :
    s.passes d = some (delivery s.event d) := by
  cases d with
  | error e => rfl
  | ok record =>
    simp only [passes, receive, delivery, Except.bind]
    cases hdecode : decodeLog s.event.entry record with
    | ok event => rfl
    | error error =>
      cases error with
      | decode cause => rfl
      | _ => exact absurd ⟨_, hdecode, fun cause h => by cases h⟩ (hkept record rfl)

theorem passes_eq_none {record : LogRecord} (hdrops : s.event.entry.Drops record) :
    s.passes (.ok record) = none := by
  obtain ⟨error, herror, hother⟩ := hdrops
  simp only [passes, receive, herror]
  cases error with
  | decode cause => exact absurd rfl (hother cause)
  | _ => rfl

/-- If nothing is lost, no log is dropped and no delivery is owed for what was not heard. -/
theorem IsRunning.keeps_of_losesNothing (h : s.IsRunning) {nesting : Nat} {moves : List Move}
    (hlost : LosesNothing nesting s moves) :
    (∀ raw ∈ Rpc.heard nesting (moves.filterMap Move.text?), ∀ record,
      Rpc.Delivers raw (some (.ok record)) → ¬ s.event.entry.Drops record) ∧
    ∀ raw ∈ Rpc.unheard nesting (moves.filterMap Move.text?), Rpc.Delivers raw none := by
  obtain ⟨told, htold, hhanded⟩ := hlost
  rw [h.handed_append, List.append_cancel_left_eq] at hhanded
  -- as many are passed on as are owed, so all that arrives is passed on and nothing is missed
  have hlength := congrArg List.length hhanded
  obtain ⟨missed, hmissed, hquiet⟩ := Rpc.length_filterMap_heard nesting htold
  rw [List.length_map, hmissed] at hlength
  generalize harrived :
    (Rpc.heard nesting (moves.filterMap Move.text?)).filterMap (Rpc.delivery? nesting) = arrived at hlength
  have hle := List.length_filterMap_le s.passes arrived
  have hpassed := List.filterMap_length_eq_length.mp (show (arrived.filterMap s.passes).length =
    arrived.length by omega)
  refine ⟨fun raw hraw record hdelivers hdrops => ?_, hquiet (by omega)⟩
  have hdelivery := (hdelivers.agree (Rpc.delivers_of_mem_heard hraw)).2 record rfl
  have harrives : Except.ok record ∈ arrived :=
    harrived ▸ List.mem_filterMap.mpr ⟨raw, hraw, hdelivery⟩
  have hsome := hpassed _ harrives
  rw [passes_eq_none hdrops] at hsome
  cases hsome

/-- If no log is dropped and no delivery is owed for what is not heard, nothing is lost. -/
theorem IsRunning.losesNothing (h : s.IsRunning) {nesting : Nat} {moves : List Move}
    (hkept : ∀ raw ∈ Rpc.heard nesting (moves.filterMap Move.text?), ∀ record,
      Rpc.Delivers raw (some (.ok record)) → ¬ s.event.entry.Drops record)
    (hquiet : ∀ raw ∈ Rpc.unheard nesting (moves.filterMap Move.text?), Rpc.Delivers raw none) :
    LosesNothing nesting s moves := by
  obtain ⟨told, htold, hreduce⟩ := Rpc.exists_told hquiet
  refine ⟨told, htold, ?_⟩
  rw [h.handed_append, hreduce, List.append_cancel_left_eq, ← List.filterMap_eq_map]
  refine List.filterMap_congr fun d hd => passes_eq_some fun record hrecord => ?_
  obtain ⟨raw, hraw, hdelivery⟩ := List.mem_filterMap.mp hd
  have hdelivers := Rpc.delivers_of_mem_heard hraw
  rw [hdelivery, hrecord] at hdelivers
  exact hkept raw hraw record hdelivers

theorem isWire_or_isTruthy_recordOf (fields : Members) :
    (Rpc.recordOf fields).data.IsWire ∨ (Rpc.recordOf fields).data.isTruthy = true := by
  rw [Rpc.recordOf, Value.truthy?]
  split
  · next htruthy => exact Or.inr htruthy
  · exact Or.inl (Or.inr ⟨[], rfl⟩)

/-- **What is lost on the way to the consumer.** Over the texts of its socket, with the iteration steps of
its consumer in between, a subscription that is open loses nothing just when it drops none of the logs
that it hears of, and nothing is owed for the text that stops its stream and for those after it. An event
with text names drops a log just if its data or one of its topics is neither a text nor bytes, or if that
holds of its address and the log would decode with another one. -/
theorem losesNothing_iff (h : s.IsRunning) (nesting : Nat) (moves : List Move) :
    (LosesNothing nesting s moves ↔
      (∀ raw ∈ Rpc.heard nesting (moves.filterMap Move.text?), ∀ record,
        Rpc.Delivers raw (some (.ok record)) → ¬ s.event.entry.Drops record) ∧
      ∀ raw ∈ Rpc.unheard nesting (moves.filterMap Move.text?), Rpc.Delivers raw none) ∧
    (s.event.entry.IsTextEvent → ∀ raw record, Rpc.Delivers raw (some (.ok record)) →
      ∃ topics, record.topics = .list topics ∧
        (s.event.entry.Drops record ↔
          ¬ record.data.IsWire ∨ (∃ v ∈ topics, ¬ v.IsWire) ∨
            (¬ record.address.IsWire ∧
              ∃ event, decodeLog s.event.entry { record with address := .text [] } = .ok event))) := by
  refine ⟨⟨h.keeps_of_losesNothing, fun ⟨hkept, hquiet⟩ => h.losesNothing hkept hquiet⟩,
    fun htext raw record hdelivers => ?_⟩
  cases hdelivers with
  | @log members fields => exact ⟨_, rfl, htext.drops_iff rfl (isWire_or_isTruthy_recordOf fields)⟩

/-- An open subscription to an event without inputs. -/
def listening (hasCallback : Bool) : Subscription :=
  ((new pinged .zero hasCallback).run [.start 0, .acquired 0 (.ok 0)]).1

theorem isRunning_listening (hasCallback : Bool) : (listening hasCallback).IsRunning :=
  ⟨rfl, List.not_mem_nil⟩

/-- A message whose log has an address that is a number. -/
def numberedFrame : Text :=
  "\x7b\"params\":\x7b\"result\":\x7b\"Log\":\x7b\"Address\":5\x7d\x7d\x7d\x7d"

/-- A message whose log decodes. -/
def pingedFrame : Text :=
  "\x7b\"params\":\x7b\"result\":\x7b\"Log\":\x7b\"Address\":\"AB\"\x7d\x7d\x7d\x7d"

/-- A step that waits for the first text, a text that is no message, and a step that takes its failure. -/
theorem losesNothing_iff_listening :
    LosesNothing Json.usualNesting (listening false)
      [.next 1, .text pingedFrame, .resume 1, .text "[", .next 2] := by
  have hheard : ∀ raw ∈ [pingedFrame, "["], ¬ Json.IsTooDeep Json.usualNesting raw := by
    decide +kernel
  have hpassed : ∀ raw ∈ [pingedFrame, "["],
      ((Rpc.delivery? Json.usualNesting raw).bind (listening false).passes).isSome = true := by
    decide +kernel
  refine ((losesNothing_iff (isRunning_listening false) _ _).1).mpr ⟨?_, ?_⟩
  · intro raw hmem record hdelivers hdrops
    have hsome := hpassed raw (Rpc.mem_of_mem_heard hmem)
    rw [(hdelivers.agree (Rpc.delivers_of_mem_heard hmem)).2 record rfl, Option.bind_some,
      passes_eq_none hdrops] at hsome
    cases hsome
  · have hall : Rpc.unheard Json.usualNesting [pingedFrame, "["] = [] := Rpc.unheard_eq_nil hheard
    intro raw hmem
    cases hall ▸ hmem

/-- A log with a number for its address reaches nobody. -/
theorem not_losesNothing_numbered :
    ¬ LosesNothing Json.usualNesting (listening true) [.text numberedFrame] := by
  have hkept : ¬ Json.IsTooDeep Json.usualNesting numberedFrame := by decide +kernel
  have hone := List.Forall₂.cons (Rpc.delivers_delivery? hkept) .nil
  rintro ⟨told, htold, hhanded⟩
  have hlength := congrArg List.length hhanded
  rw [List.length_append, List.length_append, List.length_map,
    Rpc.length_reduceOption_eq htold hone] at hlength
  -- nothing is handed over or waits, and one delivery is owed
  revert hlength
  decide +kernel

end Subscription

end LedgerAbi
