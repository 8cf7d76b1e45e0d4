/-
A call with a callback does what the awaited call does, and tells the callback once.

* `Invocation.runCallback` — a call with a callback over the signals that reach its task;
* `Invocation.withCallback` — all that comes of asking for such a call, with an event loop
  or without;
* `runCallback_eq` — the call that runs in the task is the call that is awaited, and the
  callback is told what the stages of the call have to tell;
* `callback_agrees` — one invocation of the callback for a call that is completed, with its
  result or its failure.

Design notes: what the callback is told is not followed signal by signal.  A stage of a call
knows all that was to be told on the way to it (`Stage.told`), a step tells what the next
stage has to tell beyond the one before, and so a run tells what its last stage has to tell
beyond its first.
-/
import LedgerAbi.Proofs.Call.Dispatch

namespace LedgerAbi

namespace Invocation

/-! ### Tasks -/

/-- The stage of a call with a callback after some signals, the requests that it sent and the
invocations of the callback. -/
def runCallback (i : Invocation) :
    Stage → List Signal → Stage × List (Rpc.CallKind × Payload) × List Callback
  | stage, [] => (stage, [], [])
  | stage, signal :: rest =>
    let (next, sent, told) := i.stepCallback stage signal
    let (last, sentLater, toldLater) := i.runCallback next rest
    (last, sent.toList ++ sentLater, told.toList ++ toldLater)

/-- What comes of asking for a call with a callback. -/
structure Trace where
  /-- What the asking itself raised. -/
  raised : Option Error
  /-- How far the task of the call is, if there is one. -/
  task : Option Stage
  sent : List (Rpc.CallKind × Payload)
  callbacks : List Callback

/-- Asks for a call with a callback; the signals are those to its task. -/
def withCallback (i : Invocation) (hasLoop : Bool) (signals : List Signal) : Trace :=
  match schedule hasLoop with
  | .error e => ⟨some e, none, [], []⟩
  | .ok stage =>
    let (last, sent, callbacks) := i.runCallback stage signals
    ⟨none, some last, sent, callbacks⟩

/-- How a call ended, if it did. -/
def Stage.outcome? : Stage → Option (Except Error CallResult)
  | finished outcome => some outcome
  | _ => none

/-- What a call in a stage has told its callback, if it has one. -/
def Stage.told (stage : Stage) : List Callback := (stage.outcome?.map callbackOf).toList

/-! ### Steps and runs -/

/-- A call that was given up is reported as given up, and any other as it ended. -/
theorem callbackOf_eq (outcome : Except Error CallResult) :
    callbackOf outcome = match outcome with
      | .ok r => (none, some r)
      | .error e => (some e, none) := by
  unfold callbackOf
  split
  · next h =>
    unfold isCancelled at h
    split at h
    · rfl
    · cases h
  · cases outcome <;> rfl

theorem result_mem_told {stage : Stage} {v : CallResult} :
    (none, some v) ∈ stage.told ↔ stage = .finished (.ok v) := by
  cases stage with
  | finished outcome =>
    show (none, some v) ∈ [callbackOf outcome] ↔ _
    rw [List.mem_singleton, callbackOf_eq]
    cases outcome <;> simp [eq_comm]
  | _ => simp [Stage.told, Stage.outcome?]

theorem failure_mem_told {stage : Stage} {e : Error} :
    (some e, none) ∈ stage.told ↔ stage = .finished (.error e) := by
  cases stage with
  | finished outcome =>
    show (some e, none) ∈ [callbackOf outcome] ↔ _
    rw [List.mem_singleton, callbackOf_eq]
    cases outcome <;> simp [eq_comm]
  | _ => simp [Stage.told, Stage.outcome?]

/-- A step of the task is a step of the call. The callback is told what the next stage adds. -/
theorem stepCallback_eq (i : Invocation) (stage : Stage) (signal : Signal) :
    ∃ told, i.stepCallback stage signal = ((i.step stage signal).1, (i.step stage signal).2, told) ∧
      (i.step stage signal).1.told = stage.told ++ told.toList := by
  cases stage with
  | finished outcome =>
    refine ⟨none, ?_, ?_⟩
    · rw [stepCallback, step_finished]
    · rw [step_finished]
      rfl
  -- nothing has been told on the way to the other stages, so all that the next one has to tell is new
  | scheduled =>
    refine ⟨(i.step .scheduled signal).1.outcome?.map callbackOf, ?_, rfl⟩
    rw [stepCallback]
    rcases i.step .scheduled signal with ⟨_ | _ | outcome, request⟩ <;> rfl
  | waiting =>
    refine ⟨(i.step .waiting signal).1.outcome?.map callbackOf, ?_, rfl⟩
    rw [stepCallback]
    rcases i.step .waiting signal with ⟨_ | _ | outcome, request⟩ <;> rfl

/-- The task runs the call that is awaited otherwise. Its callback is told what the last stage adds. -/
theorem runCallback_eq (i : Invocation) (stage : Stage) (signals : List Signal) :
    ∃ told, i.runCallback stage signals = ((i.run stage signals).1, (i.run stage signals).2, told) ∧
      (i.run stage signals).1.told = stage.told ++ told := by
  induction signals generalizing stage with
  | nil => exact ⟨[], rfl, (List.append_nil _).symm⟩
  | cons signal rest ih =>
    obtain ⟨now, hstep, hnow⟩ := i.stepCallback_eq stage signal
    obtain ⟨later, hrun, hlater⟩ := ih (i.step stage signal).1
    refine ⟨now.toList ++ later, ?_, ?_⟩
    · rw [runCallback, hstep, run_cons]
      simp only [hrun]
    · rw [run_cons, hlater, hnow, List.append_assoc]

theorem withCallback_eq (i : Invocation) (signals : List Signal) :
    i.withCallback true signals =
      ⟨none, some (i.run .scheduled signals).1, (i.run .scheduled signals).2,
        (i.run .scheduled signals).1.told⟩ := by
  obtain ⟨told, hrun, htold⟩ := i.runCallback_eq .scheduled signals
  rw [withCallback, show schedule true = .ok .scheduled from rfl]
  simp only [hrun]
  rw [htold]
  rfl

/-! ### Giving up -/

theorem run_append (i : Invocation) (stage : Stage) (early later : List Signal) :
    i.run stage (early ++ later) =
      ((i.run (i.run stage early).1 later).1,
        (i.run stage early).2 ++ (i.run (i.run stage early).1 later).2) := by
  induction early generalizing stage with
  | nil => rfl
  | cons signal rest ih => rw [List.cons_append, run_cons, run_cons, ih, List.append_assoc]

/-- A call that has not ended is given up for good; what it sent before stays sent. -/
theorem run_cancel (i : Invocation) {early : List Signal} (later : List Signal)
    (hearly : (i.run .scheduled early).1.outcome? = none) :
    i.run .scheduled (early ++ .cancel :: later) =
      (.finished (.error (.fault .cancelled)), (i.run .scheduled early).2) := by
  have hcancel : i.step (i.run .scheduled early).1 .cancel =
      (.finished (.error (.fault .cancelled)), none) := by
    cases hstage : (i.run .scheduled early).1 with
    | finished outcome =>
      rw [hstage] at hearly
      cases hearly
    | _ => rfl
  rw [run_append, run_cons, hcancel, run_finished, Option.toList_none, List.append_nil,
    List.append_nil]

/-- A call that is not begun sends nothing. -/
theorem sent_eq_nil_of_not_mem (i : Invocation) {signals : List Signal} (h : .run ∉ signals) :
    (i.run .scheduled signals).2 = [] := by
  induction signals with
  | nil => rfl
  | cons signal rest ih =>
    cases signal with
    | run => exact absurd List.mem_cons_self h
    | answer a => exact ih fun hrest => h (List.mem_cons_of_mem _ hrest)
    | cancel =>
      rw [run_cons, show i.step .scheduled .cancel =
        (.finished (.error (.fault .cancelled)), none) from rfl, run_finished]
      rfl

/-- **A call with a callback agrees with the awaited call.** Whatever signals come, its task sends what
the awaited call sends, and once that one is completed the callback has been invoked exactly once: with
a result if it returns this result, with a failure if it raises this failure. A call that is given up
before its end reports just that, and has sent nothing if it was never begun. Without an event loop
the call is refused, nothing is sent and the callback is never invoked. -/
theorem callback_agrees (i : Invocation) (signals : List Signal) :
    let awaited := (i.run .scheduled signals).1
    let sent := (i.run .scheduled signals).2
    let told := i.withCallback true signals
    (told.raised = none ∧ told.task = some awaited ∧ told.sent = sent) ∧
      told.callbacks.length = (if awaited.outcome?.isSome then 1 else 0) ∧
      (∀ v, (none, some v) ∈ told.callbacks ↔ awaited = .finished (.ok v)) ∧
      (∀ e, (some e, none) ∈ told.callbacks ↔ awaited = .finished (.error e)) ∧
      (∀ early later, signals = early ++ .cancel :: later →
        (i.run .scheduled early).1.outcome? = none →
          told.sent = (i.run .scheduled early).2 ∧ (.run ∉ early → told.sent = []) ∧
          told.callbacks = [(some (.fault .cancelled), none)]) ∧
      i.withCallback false signals = ⟨some (.fault .noEventLoop), none, [], []⟩ := by
  intro awaited sent told
  have htold : told = ⟨none, some awaited, sent, awaited.told⟩ := i.withCallback_eq signals
  rw [htold]
  refine ⟨⟨rfl, rfl, rfl⟩, ?_, fun v => ?_, fun e => ?_, fun early later hsignals hearly => ?_, rfl⟩
  · cases awaited <;> rfl
  · exact result_mem_told
  · exact failure_mem_told
  · have hrun : (awaited, sent) = _ := hsignals ▸ i.run_cancel later hearly
    obtain ⟨hawaited, hsent⟩ := Prod.mk.inj hrun
    refine ⟨hsent, fun hbegun => hsent.trans (i.sent_eq_nil_of_not_mem hbegun), ?_⟩
    rw [hawaited]
    rfl

/-- A call that is given up while the ledger works on it, and one that is given up before it begins. -/
theorem callback_agrees_cancelled :
    ((doorCall.withCallback true [.run, .cancel, .answer (.ok .empty)]).sent.length = 1 ∧
      (doorCall.withCallback true [.run, .cancel, .answer (.ok .empty)]).callbacks =
        [(some (.fault .cancelled), none)]) ∧
    (doorCall.withCallback true [.cancel, .run]).sent = [] ∧
      (doorCall.withCallback true [.cancel, .run]).callbacks = [(some (.fault .cancelled), none)] := by
  obtain ⟨-, -, -, -, hbegun, -⟩ := doorCall.callback_agrees [.run, .cancel, .answer (.ok .empty)]
  obtain ⟨-, -, -, -, hunbegun, -⟩ := doorCall.callback_agrees [.cancel, .run]
  obtain ⟨hsent, -, htold⟩ := hbegun [.run] [.answer (.ok .empty)] rfl rfl
  obtain ⟨-, hnothing, htold'⟩ := hunbegun [] [.run] rfl rfl
  exact ⟨⟨congrArg List.length hsent, htold⟩, hnothing List.not_mem_nil, htold'⟩

end Invocation

end LedgerAbi
