/-
What a log stream delivers.

* `Rpc.Handler` — the handler of a stream, which may fail on any delivery;
* `Rpc.Stream.run` — a stream and its handler over the signals that reach the stream;
* `Rpc.textsRead`, `Rpc.lastWords` — the texts that come before a stream ends or is closed,
  and what its end is to deliver;
* `Rpc.heard`, `Rpc.unheard` — the texts before the one that stops the reader, and the others;
* `Rpc.Stream.IsFaithful` — the handler receives what all the texts are to deliver, in their
  order, then what the end is to deliver, and nothing besides;
* `Rpc.Stream.isFaithful_iff` — a stream is faithful unless a text is nested too deep and
  something was to be delivered from there on.

Design notes: what is read and how a stream ends is described on the signals alone, so that
the reader does not occur in the description.  A reader is either reading, and then nothing
has ended the stream yet, or it has ended, and then nothing follows (`run_ended`).  Failures
of the handler are noted and have no effect.
-/
import LedgerAbi.Proofs.Rpc.Message
import LedgerAbi.Rpc.Stream
import Mathlib.Data.List.TakeWhile

namespace LedgerAbi.Rpc

/-! ### Handlers -/

/-- A handler, by how it fails on a delivery after those before it, if it does. -/
abbrev Handler := List LogDelivery → LogDelivery → Option Error

/-- What a handler received, and the failures of it that were noted. -/
structure Transcript where
  invocations : List LogDelivery
  noted : List Error

/-- Invokes a handler. A failure of it is noted. -/
def Handler.deliver (handler : Handler) (t : Transcript) (d : LogDelivery) : Transcript where
  invocations := t.invocations ++ [d]
  noted := t.noted ++ (handler t.invocations d).toList

/-- The failures of a handler on deliveries, after some earlier ones. -/
def Handler.failures (handler : Handler) : (earlier later : List LogDelivery) → List Error
  | _, [] => []
  | earlier, d :: rest => (handler earlier d).toList ++ failures handler (earlier ++ [d]) rest

/-- Deliveries reach the handler in order, and each failure of it is noted, whatever it fails on. -/
theorem Handler.foldl_deliver (handler : Handler) (t : Transcript) (ds : List LogDelivery) :
    ds.foldl handler.deliver t =
      ⟨t.invocations ++ ds, t.noted ++ handler.failures t.invocations ds⟩ := by
  induction ds generalizing t with
  | nil => rw [failures, List.append_nil, List.append_nil]; rfl
  | cons d rest ih =>
    rw [List.foldl_cons, ih, deliver, failures, List.append_assoc, List.append_assoc]
    rfl

/-! ### Signals -/

/-- The texts that are read: those before the stream ends or is closed. -/
def textsRead : List StreamSignal → List Text
  | .frame (.text t) :: rest => t :: textsRead rest
  | .frame (.binary _) :: rest => textsRead rest
  | _ => []

/-- What the end of a stream delivers: a failure if there was one, then the end itself. A stream that is
closed first, or has not ended, delivers neither. -/
def lastWords : List StreamSignal → List LogDelivery
  | .frame (.text _) :: rest => lastWords rest
  | .frame (.binary _) :: rest => lastWords rest
  | .frame (.error cause) :: _ => [.error (.transport (.websocket cause)), .error streamEnded]
  | .frame (.failure cause) :: _ => [.error (.transport (.websocket cause)), .error streamEnded]
  | .frame .ended :: _ => [.error streamEnded]
  | .close :: _ => []
  | [] => []

/-! ### Texts that stop the reader -/

/-- The texts before the first that is nested too deep. -/
def heard (nesting : Nat) (raws : List Text) : List Text :=
  raws.takeWhile fun raw => ¬ Json.IsTooDeep nesting raw

/-- The first text that is nested too deep, and all after it. -/
def unheard (nesting : Nat) (raws : List Text) : List Text :=
  raws.dropWhile fun raw => ¬ Json.IsTooDeep nesting raw

section Hearing

variable {nesting : Nat} {raw : Text} {raws : List Text}

theorem heard_cons (h : ¬ Json.IsTooDeep nesting raw) :
    heard nesting (raw :: raws) = raw :: heard nesting raws :=
  List.takeWhile_cons_of_pos (decide_eq_true h)

theorem unheard_cons (h : ¬ Json.IsTooDeep nesting raw) :
    unheard nesting (raw :: raws) = unheard nesting raws :=
  List.dropWhile_cons_of_pos (decide_eq_true h)

theorem heard_cons_of_isTooDeep (h : Json.IsTooDeep nesting raw) : heard nesting (raw :: raws) = [] :=
  List.takeWhile_cons_of_neg (by simpa using h)

theorem unheard_cons_of_isTooDeep (h : Json.IsTooDeep nesting raw) :
    unheard nesting (raw :: raws) = raw :: raws :=
  List.dropWhile_cons_of_neg (by simpa using h)

theorem heard_append_unheard (nesting : Nat) (raws : List Text) :
    heard nesting raws ++ unheard nesting raws = raws :=
  List.takeWhile_append_dropWhile

theorem mem_of_mem_heard (h : raw ∈ heard nesting raws) : raw ∈ raws :=
  heard_append_unheard nesting raws ▸ List.mem_append_left _ h

/-- Texts of which none is too deep are all heard. -/
theorem unheard_eq_nil (h : ∀ raw ∈ raws, ¬ Json.IsTooDeep nesting raw) : unheard nesting raws = [] :=
  List.dropWhile_eq_nil_iff.mpr fun raw hraw => decide_eq_true (h raw hraw)

/-- A text that is heard delivers what it is to deliver. -/
theorem delivers_of_mem_heard (h : raw ∈ heard nesting raws) : Delivers raw (delivery? nesting raw) :=
  delivers_delivery? (by simpa using List.mem_takeWhile_imp h)

theorem forall₂_delivers_heard (nesting : Nat) (raws : List Text) :
    List.Forall₂ Delivers (heard nesting raws) ((heard nesting raws).map (delivery? nesting)) := by
  rw [List.forall₂_map_right_iff, List.forall₂_same]
  exact fun raw hraw => delivers_of_mem_heard hraw

/-- What texts are to deliver falls into what the heard ones are to and what the others are to. -/
theorem exists_split (nesting : Nat) {told : List (Option LogDelivery)}
    (h : List.Forall₂ Delivers raws told) :
    ∃ before after, told = before ++ after ∧ List.Forall₂ Delivers (heard nesting raws) before ∧
      List.Forall₂ Delivers (unheard nesting raws) after := by
  rw [← heard_append_unheard nesting raws] at h
  exact ⟨_, _, (List.take_append_drop _ told).symm, (List.forall₂_take_append _ _ _ h.flip).flip,
    (List.forall₂_drop_append _ _ _ h.flip).flip⟩

/-- If the others are to deliver nothing, the heard texts deliver what all texts are to. -/
theorem exists_told (h : ∀ raw ∈ unheard nesting raws, Delivers raw none) :
    ∃ told, List.Forall₂ Delivers raws told ∧
      told.reduceOption = (heard nesting raws).filterMap (delivery? nesting) := by
  have hall : List.Forall₂ Delivers (heard nesting raws ++ unheard nesting raws) _ :=
    List.rel_append (forall₂_delivers_heard nesting raws) (forall₂_delivers_none h)
  rw [heard_append_unheard] at hall
  refine ⟨_, hall, ?_⟩
  rw [List.reduceOption_append, List.reduceOption_replicate_none, List.append_nil,
    reduceOption_map_delivery?]

/-- The heard texts deliver no more than all texts are to, and less if one of the others is to deliver
something. -/
theorem length_filterMap_heard (nesting : Nat) {told : List (Option LogDelivery)}
    (h : List.Forall₂ Delivers raws told) :
    ∃ missed, told.reduceOption.length =
        ((heard nesting raws).filterMap (delivery? nesting)).length + missed ∧
      (missed = 0 → ∀ raw ∈ unheard nesting raws, Delivers raw none) := by
  obtain ⟨before, after, rfl, hbefore, hafter⟩ := exists_split nesting h
  refine ⟨after.reduceOption.length, ?_, fun hnone => ?_⟩
  · rw [List.reduceOption_append, List.length_append,
      length_reduceOption_eq hbefore (forall₂_delivers_heard nesting raws),
      reduceOption_map_delivery?]
  · exact (reduceOption_eq_nil_iff hafter).mp (List.eq_nil_of_length_eq_zero hnone)

end Hearing

namespace Stream

/-- A stream and what its handler received after some signals. -/
def run (handler : Handler) : Stream → Transcript → List StreamSignal → Stream × Transcript
  | s, t, [] => (s, t)
  | s, t, signal :: rest =>
    let (next, deliveries) := s.step signal
    run handler next (deliveries.foldl handler.deliver t) rest

variable (handler : Handler) {nesting : Nat}

theorem run_cons (s : Stream) (t : Transcript) (signal : StreamSignal) (rest : List StreamSignal) :
    run handler s t (signal :: rest) =
      run handler (s.step signal).1 ((s.step signal).2.foldl handler.deliver t) rest := rfl

/-- A text that is nested too deep stops the reader, and nothing is delivered. -/
theorem step_text_of_isTooDeep {raw : Text} (h : Json.IsTooDeep nesting raw) :
    (opened nesting).step (.frame (.text raw)) = (⟨.failed .tooDeep, false, nesting⟩, []) := by
  simp only [step, opened, Reader.step, dispatch_eq_error_iff.mpr ⟨h, rfl⟩]

/-- Any other text delivers what it is to deliver, and the reader goes on. -/
theorem step_text {raw : Text} (h : ¬ Json.IsTooDeep nesting raw) :
    (opened nesting).step (.frame (.text raw)) = (opened nesting, (delivery? nesting raw).toList) := by
  cases hdispatch : dispatch nesting raw with
  | ok told => simp only [step, opened, Reader.step, delivery?, hdispatch]
  | error cause => exact absurd (dispatch_eq_error_iff.mp hdispatch).1 h

/-- Whatever a text delivers, it is to deliver. -/
theorem delivers_of_mem_step {s : Stream} {raw : Text} {d : LogDelivery}
    (h : d ∈ (s.step (.frame (.text raw))).2) : Delivers raw (some d) := by
  obtain ⟨reader, closing, nesting⟩ := s
  cases reader with
  | reading =>
    cases hdispatch : dispatch nesting raw with
    | ok told =>
      simp only [step, Reader.step, hdispatch, Option.mem_toList] at h
      exact delivers_of_dispatch (hdispatch.trans (congrArg Except.ok h))
    | error cause =>
      simp only [step, Reader.step, hdispatch] at h
      cases h
  | finished => cases h
  | failed cause => cases h

/-- A reader that has ended stays so and delivers nothing. -/
theorem step_ended {s : Stream} (hs : s.reader ≠ .reading) (signal : StreamSignal) :
    (s.step signal).1.reader ≠ .reading ∧ (s.step signal).2 = [] := by
  obtain ⟨reader, closing, nesting⟩ := s
  cases reader with
  | reading => exact absurd rfl hs
  | finished => cases signal <;> exact ⟨hs, rfl⟩
  | failed cause => cases signal <;> exact ⟨hs, rfl⟩

/-- After its reader has ended a stream delivers nothing. -/
theorem run_ended {s : Stream} (hs : s.reader ≠ .reading) (t : Transcript)
    (signals : List StreamSignal) : (run handler s t signals).2 = t := by
  induction signals generalizing s with
  | nil => rfl
  | cons signal rest ih =>
    obtain ⟨hnext, hnothing⟩ := step_ended hs signal
    rw [run_cons, hnothing]
    exact ih hnext

theorem run_append (s : Stream) (t : Transcript) (early later : List StreamSignal) :
    run handler s t (early ++ later) =
      run handler (run handler s t early).1 (run handler s t early).2 later := by
  induction early generalizing s t with
  | nil => rfl
  | cons signal rest ih => exact ih _ _

/-- Closing a stream ends its reader. -/
theorem reader_step_close (s : Stream) : (s.step .close).1.reader ≠ .reading := by
  obtain ⟨reader, closing, nesting⟩ := s
  cases reader <;> exact fun h => by cases h

/-- After the subscriber has closed it a stream delivers nothing. -/
theorem run_close (s : Stream) (t : Transcript) (early later : List StreamSignal) :
    (run handler s t (early ++ .close :: later)).2 = (run handler s t early).2 := by
  rw [run_append, run_cons]
  exact run_ended handler (reader_step_close _) _ later

variable (nesting)

/-- What the end of a stream delivers: nothing if a text has stopped the reader before. -/
def wordsHeard (nesting : Nat) (signals : List StreamSignal) : List LogDelivery :=
  if unheard nesting (textsRead signals) = [] then lastWords signals else []

/-- A stream that is open delivers what the heard texts and then its end deliver. -/
theorem run_opened (t : Transcript) (signals : List StreamSignal) :
    (run handler (opened nesting) t signals).2 =
      ((heard nesting (textsRead signals)).filterMap (delivery? nesting) ++
        wordsHeard nesting signals).foldl handler.deliver t := by
  induction signals generalizing t with
  | nil => rfl
  | cons signal rest ih =>
    rw [run_cons]
    match signal with
    | .frame (.text raw) =>
      rw [wordsHeard, textsRead, lastWords]
      by_cases hdeep : Json.IsTooDeep nesting raw
      · rw [step_text_of_isTooDeep hdeep, heard_cons_of_isTooDeep hdeep,
          unheard_cons_of_isTooDeep hdeep, if_neg (List.cons_ne_nil _ _)]
        exact run_ended handler (fun h => by cases h) t rest
      · rw [step_text hdeep, ih, heard_cons hdeep, unheard_cons hdeep, List.filterMap_cons,
          wordsHeard, ← List.foldl_append, ← List.append_assoc]
        cases delivery? nesting raw <;> rfl
    | .frame (.binary _) => exact ih t
    | .frame (.error _) => exact run_ended handler (fun h => by cases h) _ rest
    | .frame (.failure _) => exact run_ended handler (fun h => by cases h) _ rest
    | .frame .ended => exact run_ended handler (fun h => by cases h) _ rest
    | .close => exact run_ended handler (fun h => by cases h) _ rest

/-- What the handler of a stream received, and the failures of it that were noted. -/
def transcript (handler : Handler) (nesting : Nat) (signals : List StreamSignal) : Transcript :=
  (run handler (opened nesting) ⟨[], []⟩ signals).2

/-- The handler receives what the texts are to deliver that come before the stream ends or is closed, one
text after the other, and then what the end is to deliver. A failure of the handler is noted and does no
more. Nothing follows once the stream is closed. -/
structure IsFaithful (handler : Handler) (nesting : Nat) (signals : List StreamSignal) : Prop where
  told : ∃ told, List.Forall₂ Delivers (textsRead signals) told ∧
    (transcript handler nesting signals).invocations = told.reduceOption ++ lastWords signals
  noted : (transcript handler nesting signals).noted =
    handler.failures [] (transcript handler nesting signals).invocations
  closed : ∀ later, transcript handler nesting (signals ++ .close :: later) =
    transcript handler nesting signals

theorem invocations_transcript (signals : List StreamSignal) :
    (transcript handler nesting signals).invocations =
      (heard nesting (textsRead signals)).filterMap (delivery? nesting) ++ wordsHeard nesting signals := by
  rw [transcript, run_opened, Handler.foldl_deliver]
  rfl

theorem noted_transcript (signals : List StreamSignal) :
    (transcript handler nesting signals).noted =
      handler.failures [] (transcript handler nesting signals).invocations := by
  rw [transcript, run_opened, Handler.foldl_deliver]
  rfl

/-- **A log stream delivers faithfully unless it is stopped.** Whatever its socket yields, wherever the
subscriber closes it and however the handler fails, the handler receives what the texts are to deliver
and the end of the stream, in order and nothing else, just when no text is nested too deep, or nothing is
to be delivered from that text on. In any case the handler receives what the texts before are to deliver,
and the end if there is no such text. -/
theorem isFaithful_iff (signals : List StreamSignal) :
    (IsFaithful handler nesting signals ↔
      (∀ raw ∈ unheard nesting (textsRead signals), Delivers raw none) ∧
        (unheard nesting (textsRead signals) = [] ∨ lastWords signals = [])) ∧
    (∃ told, List.Forall₂ Delivers (heard nesting (textsRead signals)) told ∧
      (transcript handler nesting signals).invocations =
        told.reduceOption ++ wordsHeard nesting signals) ∧
    (transcript handler nesting signals).noted =
      handler.failures [] (transcript handler nesting signals).invocations ∧
    ∀ later, transcript handler nesting (signals ++ .close :: later) =
      transcript handler nesting signals := by
  have hnoted := noted_transcript handler nesting signals
  have hclosed := run_close handler (opened nesting) ⟨[], []⟩ signals
  refine ⟨⟨fun h => ?_, fun ⟨hquiet, hend⟩ => ⟨?_, hnoted, hclosed⟩⟩, ?_, hnoted, hclosed⟩
  · obtain ⟨told, htold, hinvocations⟩ := h.told
    obtain ⟨missed, hlength, hmissed⟩ := length_filterMap_heard nesting htold
    -- what is missed, and an end that is not heard, leave the handler with too few deliveries
    have hcount := congrArg List.length hinvocations
    rw [invocations_transcript, List.length_append, List.length_append, wordsHeard] at hcount
    split at hcount
    · next hall =>
      refine ⟨?_, Or.inl hall⟩
      rw [hall]
      exact List.forall_mem_nil _
    · rw [List.length_nil] at hcount
      exact ⟨hmissed (by omega), Or.inr (List.eq_nil_of_length_eq_zero (by omega))⟩
  · obtain ⟨told, htold, hreduce⟩ := exists_told hquiet
    refine ⟨told, htold, ?_⟩
    have hwords : wordsHeard nesting signals = lastWords signals := by
      rw [wordsHeard]
      split
      · rfl
      · next hsome => exact (hend.resolve_left hsome).symm
    rw [invocations_transcript, hreduce, hwords]
  · refine ⟨_, forall₂_delivers_heard nesting _, ?_⟩
    rw [invocations_transcript, reduceOption_map_delivery?]

/-- A text of brackets that are never closed. -/
def brackets : Text := List.replicate 2000 (.char '[')

/-- More brackets than are followed are no message, and then the stream ends. The handler hears of
neither. -/
theorem not_isFaithful_brackets :
    Delivers brackets (some (.error (.transport (.malformedMessage brackets)))) ∧
    (∀ handler, (transcript handler Json.usualNesting
      [.frame (.text brackets), .frame .ended]).invocations = []) ∧
    ¬ IsFaithful (fun _ _ => none) Json.usualNesting [.frame (.text brackets), .frame .ended] := by
  have hsplit : brackets = .char '[' :: List.replicate 1999 (.char '[') := List.replicate_succ
  have hdeep : Json.IsTooDeep Json.usualNesting brackets := Json.isTooDeep_brackets (by decide)
  have hunheard (raws : List Text) : unheard Json.usualNesting (brackets :: raws) ≠ [] := by
    rw [unheard_cons_of_isTooDeep hdeep]
    exact List.cons_ne_nil _ _
  refine ⟨.malformed ?_ rfl, fun handler => ?_, fun h => ?_⟩
  · rintro ⟨members, ⟨nesting, hparse⟩, -⟩
    rw [hsplit] at hparse
    obtain ⟨items, hitems⟩ := Json.exists_list_of_parse hparse
    cases hitems
  · rw [invocations_transcript, wordsHeard, textsRead, heard_cons_of_isTooDeep hdeep, if_neg (hunheard _)]
    rfl
  · cases ((isFaithful_iff _ _ _).1.mp h).2.resolve_left (hunheard _)

end Stream

end LedgerAbi.Rpc
