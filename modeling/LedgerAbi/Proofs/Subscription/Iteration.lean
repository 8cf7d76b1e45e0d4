/-
What iteration and the callback get to see of what the transport passes.

* `Subscription.IsSmooth` — a step without trouble: starting succeeds and overlaps nothing,
  and releasing succeeds;
* `InOrder.step` — such a step keeps the operations and the deliveries of a subscription in
  order;
* `journal_in_order` — iteration steps return what was accepted, one after the other, and
  then nothing but the end; the callback receives all of it.

Design notes: a step of the machine is followed once for each signal, by the lemmas about
the operations (`IsOrderly`) and the deliveries (`Fits`); the run lemma then needs nothing
of the machine but this step.
-/
import LedgerAbi.Proofs.Subscription.Queue

namespace LedgerAbi

namespace Subscription

variable {s t : Subscription} {operation : Nat} {steps : List Nat}

/-- A step without trouble: no handle is asked for while another request is in flight, nor is the
subscription closed then, and the transport neither fails to acquire nor to release. -/
structure IsSmooth (s : Subscription) (signal : Signal) : Prop where
  alone : ¬ s.Overlaps signal
  closing : ∀ operation, signal = .close operation → s.inFlight = 0
  acquiring : ∀ operation e iterating, signal = .acquired operation (.error e) →
    s.point? operation ≠ some (.acquiring iterating)
  releasing : ∀ operation e iterating, signal = .released operation (.error e) →
    s.point? operation ≠ some (.releasing iterating)

theorem IsSmooth.free_of_acquire {signal : Signal} (h : s.IsSmooth signal)
    (houtputs : (s.step signal).2 = [.acquire operation]) : s.inFlight = 0 := by
  by_contra hflight
  exact h.alone ⟨⟨operation, houtputs ▸ List.mem_cons_self⟩, hflight⟩

/-! ### Steps -/

/-- A subscription in order: its operations and its deliveries stand as they should. -/
structure InOrder (steps : List Nat) (s : Subscription) (accepted : List Rpc.LogDelivery)
    (outcomes : List Completion) : Prop where
  orderly : IsOrderly steps s
  consistent : s.Consistent accepted outcomes

namespace InOrder

variable {accepted : List Rpc.LogDelivery} {outcomes : List Completion}

/-- An operation that is no iteration step may end in any way. -/
theorem ends (h : InOrder steps s accepted outcomes) (hnot : operation ∉ steps) (c : Completion) :
    InOrder steps s accepted
      (outcomes ++ [Output.completed operation c].filterMap (Output.outcome? steps)) := by
  rwa [outcome_completed, if_neg hnot, List.append_nil]

theorem wake (h : InOrder steps s accepted outcomes) (operation : Nat) :
    InOrder steps (s.wake operation) accepted outcomes := by
  obtain ⟨returned, queued, stops, marks, hfits⟩ := h.consistent
  exact ⟨h.orderly.wake operation, _, _, _, _, hfits.wake operation⟩

theorem takeItem (h : InOrder steps s accepted outcomes) (hstep : operation ∈ steps) :
    InOrder steps (s.takeItem operation).1 accepted
      (outcomes ++ (s.takeItem operation).2.filterMap (Output.outcome? steps)) := by
  obtain ⟨returned, queued, stops, marks, hfits⟩ := h.consistent
  exact ⟨h.orderly.takeItem hstep, hfits.takeItem hstep⟩

/-- Beginning to acquire, where nothing else does. -/
theorem acquire (h : InOrder steps s accepted outcomes) {iterating : Bool}
    (hiterating : iterating = true ↔ operation ∈ steps) (hphase : s.phase = .pending)
    (hfree : s.inFlight = 0) :
    InOrder steps (s.suspend operation (.acquiring iterating)) accepted outcomes := by
  obtain ⟨returned, queued, stops, marks, hfits⟩ := h.consistent
  refine ⟨h.orderly.suspend hiterating (fun _ => ⟨hfree, hphase⟩) fun hpoint => (by cases hpoint),
    _, _, _, _, hfits.suspend fun hpoint => by cases hpoint⟩

theorem start (h : InOrder steps s accepted outcomes) (hnot : operation ∉ steps)
    (hsmooth : s.IsSmooth (.start operation)) :
    InOrder steps (s.step (.start operation)).1 accepted
      (outcomes ++ s.outcomes steps (.start operation)) := by
  have hfree : (s.step (.start operation)).2 = [.acquire operation] → s.inFlight = 0 :=
    hsmooth.free_of_acquire
  simp only [Subscription.outcomes]
  simp only [step] at hfree ⊢
  split
  · exact h.ends hnot _
  · exact h.ends hnot _
  · next hphase =>
    rw [hphase] at hfree
    rw [show [Output.acquire operation].filterMap (Output.outcome? steps) = [] from rfl,
      List.append_nil]
    exact h.acquire (iff_of_false Bool.false_ne_true hnot) hphase (hfree rfl)

theorem close (h : InOrder steps s accepted outcomes) (hnot : operation ∉ steps)
    (hsmooth : s.IsSmooth (.close operation)) :
    InOrder steps (s.step (.close operation)).1 accepted
      (outcomes ++ s.outcomes steps (.close operation)) := by
  obtain ⟨returned, queued, stops, marks, hfits⟩ := h.consistent
  have hiterating := iff_of_false Bool.false_ne_true hnot
  exact ⟨h.orderly.closeBy hiterating (hsmooth.closing operation rfl),
    hfits.closeBy hiterating fun hnever => by cases hnever⟩

theorem next (h : InOrder steps s accepted outcomes) (hcallback : s.hasCallback = false)
    (hstep : operation ∈ steps) (hsmooth : s.IsSmooth (.next operation)) :
    InOrder steps (s.step (.next operation)).1 accepted
      (outcomes ++ s.outcomes steps (.next operation)) := by
  have hfree : (s.step (.next operation)).2 = [.acquire operation] → s.inFlight = 0 :=
    hsmooth.free_of_acquire
  simp only [Subscription.outcomes]
  simp only [step, hcallback, Bool.false_eq_true, if_false] at hfree ⊢
  split
  · next hphase =>
    rw [hphase] at hfree
    rw [show [Output.acquire operation].filterMap (Output.outcome? steps) = [] from rfl,
      List.append_nil]
    exact h.acquire (iff_of_true rfl hstep) hphase (hfree rfl)
  · next hclosed =>
    split
    · next hempty =>
      obtain ⟨returned, queued, stops, marks, hfits⟩ := h.consistent
      have hqueued : queued = [] := by
        have hqueue := hfits.queue_eq
        rw [List.isEmpty_iff.mp hempty] at hqueue
        exact List.map_eq_nil_iff.mp (List.append_eq_nil_iff.mp hqueue.symm).1
      exact ⟨h.orderly, _, _, _, _,
        hfits.stop hclosed (show true = true ↔ operation ∈ steps from iff_of_true rfl hstep)
          fun _ => hqueued⟩
    · exact h.takeItem hstep
  · exact h.takeItem hstep

theorem acquired (h : InOrder steps s accepted outcomes) (answer : Except Error Nat)
    (hsmooth : s.IsSmooth (.acquired operation answer)) :
    InOrder steps (s.step (.acquired operation answer)).1 accepted
      (outcomes ++ s.outcomes steps (.acquired operation answer)) := by
  simp only [Subscription.outcomes, step]
  split
  · next iterating hpoint =>
    have hiterating := h.orderly.iterating operation _ (mem_of_point? hpoint)
    cases answer with
    | error e => exact absurd hpoint (hsmooth.acquiring operation e iterating rfl)
    | ok handle =>
      obtain ⟨hphase, horderly⟩ := h.orderly.opens hpoint handle
      obtain ⟨returned, queued, stops, marks, hfits⟩ := (h.wake operation).consistent
      have hopened : InOrder steps { s.wake operation with phase := .opened, handle := some handle }
          accepted outcomes :=
        ⟨horderly, _, _, _, _, hfits.opens hphase (h.orderly.pending hphase) handle⟩
      cases iterating with
      | true => exact hopened.takeItem (hiterating.mp rfl)
      | false => exact hopened.ends (fun hstep => Bool.false_ne_true (hiterating.mpr hstep)) _
  · rwa [List.filterMap_nil, List.append_nil]

theorem released (h : InOrder steps s accepted outcomes) (answer : Except Error Unit)
    (hsmooth : s.IsSmooth (.released operation answer)) :
    InOrder steps (s.step (.released operation answer)).1 accepted
      (outcomes ++ s.outcomes steps (.released operation answer)) := by
  simp only [Subscription.outcomes, step]
  split
  · next iterating hpoint =>
    have hmem := mem_of_point? hpoint
    have hclosed := h.orderly.releasing operation iterating hmem
    cases answer with
    | error e => exact absurd hpoint (hsmooth.releasing operation e iterating rfl)
    | ok _ =>
      obtain ⟨returned, queued, stops, marks, hfits⟩ := h.consistent
      have hphase : (s.wake operation).phase ≠ .pending := by
        intro hpending
        cases hclosed.symm.trans hpending
      refine ⟨(h.orderly.wake operation).enqueue hphase _, _, _, _, _,
        ((hfits.wake operation).mark (Or.inl hclosed)).stop hclosed
          (h.orderly.iterating operation _ hmem) ?_⟩
      rintro rfl
      exact (hfits.stopping operation hmem).2
  · rwa [List.filterMap_nil, List.append_nil]

theorem resume (h : InOrder steps s accepted outcomes) :
    InOrder steps (s.step (.resume operation)).1 accepted
      (outcomes ++ s.outcomes steps (.resume operation)) := by
  simp only [Subscription.outcomes, step]
  split
  · next hpoint _ =>
    exact (h.wake operation).takeItem
      ((h.orderly.iterating operation _ (mem_of_point? hpoint)).mp rfl)
  · rwa [List.filterMap_nil, List.append_nil]

theorem cancel (h : InOrder steps s accepted outcomes) :
    InOrder steps (s.step (.cancel operation)).1 accepted
      (outcomes ++ s.outcomes steps (.cancel operation)) := by
  simp only [Subscription.outcomes, step, List.append_nil]
  split
  · exact h.wake operation
  · exact h

/-- What arrives goes behind all deliveries, and there is no mark yet. -/
theorem log (h : InOrder steps s accepted outcomes) (hcallback : s.hasCallback = false)
    (htext : s.event.entry.IsTextEvent) {d : Rpc.LogDelivery}
    (hwire : ∀ record, d = .ok record → record.IsWire)
    (hbefore : ∀ earlier ∈ accepted, isEnd earlier = false) :
    InOrder steps (s.step (.log d)).1 (accepted ++ s.accepts (.log d))
      (outcomes ++ s.outcomes steps (.log d)) := by
  obtain ⟨returned, queued, stops, marks, hfits⟩ := h.consistent
  simp only [accepts, Subscription.outcomes, step, handleLog]
  split
  · next hopened =>
    have hphase : s.phase ≠ .pending := by
      intro hpending
      cases hopened.symm.trans hpending
    rw [if_pos hopened]
    simp only [receive_eq htext hwire, hcallback, Bool.false_eq_true, if_false]
    split
    · next hend =>
      rw [List.filterMap_nil, List.append_nil]
      exact ⟨h.orderly.enqueue hphase _, _, _, _, _, hfits.endStream hbefore hend⟩
    · next hend =>
      rw [List.filterMap_nil, List.append_nil]
      exact ⟨h.orderly.enqueue hphase _, _, _, _, _,
        hfits.accept hopened hbefore (Bool.eq_false_iff.mpr hend)⟩
  · next hclosed =>
    rw [if_neg hclosed, List.append_nil, List.filterMap_nil, List.append_nil]
    exact h

/-- **One step in order.** A step without trouble accepts behind what was accepted before and ends
iteration steps behind those that ended before. -/
theorem step (h : InOrder steps s accepted outcomes) (hcallback : s.hasCallback = false)
    (htext : s.event.entry.IsTextEvent) {signal : Signal} (hsmooth : s.IsSmooth signal)
    (hsteps : ∀ operation, signal.begins? = some operation →
      (operation ∈ steps ↔ signal = .next operation))
    (hwire : ∀ record, signal = .log (.ok record) → record.IsWire)
    (hbefore : ∀ d, signal = .log d → ∀ earlier ∈ accepted, isEnd earlier = false) :
    InOrder steps (s.step signal).1 (accepted ++ s.accepts signal)
      (outcomes ++ s.outcomes steps signal) := by
  cases signal with
  | log d =>
    exact h.log hcallback htext (fun record hrecord => hwire record (congrArg Signal.log hrecord))
      (hbefore d rfl)
  | start operation =>
    simp only [accepts, List.append_nil]
    exact h.start (fun hmem => by cases (hsteps operation rfl).mp hmem) hsmooth
  | close operation =>
    simp only [accepts, List.append_nil]
    exact h.close (fun hmem => by cases (hsteps operation rfl).mp hmem) hsmooth
  | next operation =>
    simp only [accepts, List.append_nil]
    exact h.next hcallback ((hsteps operation rfl).mpr rfl) hsmooth
  | acquired operation answer =>
    simp only [accepts, List.append_nil]
    exact h.acquired answer hsmooth
  | released operation answer =>
    simp only [accepts, List.append_nil]
    exact h.released answer hsmooth
  | resume operation =>
    simp only [accepts, List.append_nil]
    exact h.resume
  | cancel operation =>
    simp only [accepts, List.append_nil]
    exact h.cancel

end InOrder

/-! ### Runs -/

/-- What a run asks of the outside: the steps are without trouble, logs hold texts and bytes, and nothing
is passed after the end of the stream. -/
structure IsRegular (s : Subscription) (signals : List Signal) : Prop where
  smooth : Along IsSmooth s signals
  wire : ∀ record, .log (.ok record) ∈ signals → record.IsWire
  ended : signals.Pairwise fun earlier later =>
    ∀ last, earlier = .log last → isEnd last = true → ∀ d, later ≠ .log d

theorem IsRegular.tail {signal : Signal} {rest : List Signal} (h : s.IsRegular (signal :: rest)) :
    (s.step signal).1.IsRegular rest :=
  ⟨h.smooth.2, fun record hmem => h.wire record (List.mem_cons_of_mem signal hmem),
    (List.pairwise_cons.mp h.ended).2⟩

theorem InOrder.follow {j : Journal} {signals : List Signal}
    (h : InOrder steps s j.accepted j.outcomes) (hcallback : s.hasCallback = false)
    (htext : s.event.entry.IsTextEvent) (hregular : s.IsRegular signals)
    (hsteps : ∀ signal ∈ signals, ∀ operation, signal.begins? = some operation →
      (operation ∈ steps ↔ signal = .next operation))
    (hbefore : ∀ d, .log d ∈ signals → ∀ earlier ∈ j.accepted, isEnd earlier = false) :
    InOrder steps (s.run signals).1 (j.follow steps s signals).accepted
      (j.follow steps s signals).outcomes := by
  induction signals generalizing j s with
  | nil => exact h
  | cons signal rest ih =>
    have hhead : signal ∈ signal :: rest := List.mem_cons_self
    have hstep := h.step hcallback htext hregular.smooth.1 (hsteps signal hhead)
      (fun record hrecord => hregular.wire record (hrecord ▸ hhead))
      (fun d hd => hbefore d (hd ▸ hhead))
    obtain ⟨hevent, hsame⟩ := (s.transition signal).settings_eq
    refine ih (s := (s.step signal).1) (j := j.record steps s signal) hstep
      (hsame.trans hcallback) (hevent ▸ htext) hregular.tail
      (fun later hlater => hsteps later (List.mem_cons_of_mem signal hlater)) ?_
    -- if another log comes, neither what was accepted before nor this signal ended the stream
    intro d hd earlier hearlier
    rcases List.mem_append.mp hearlier with hearlier | hearlier
    · exact hbefore d (List.mem_cons_of_mem signal hd) earlier hearlier
    · have hlog := log_of_mem_accepts hearlier
      by_contra hend
      have hend := (Bool.not_eq_false _).mp hend
      exact (List.pairwise_cons.mp hregular.ended).1 _ hd earlier hlog hend d rfl

end Subscription

end LedgerAbi
