/-
What a closed subscription keeps to.

* `Subscription.KeepsClosed` — a closed subscription stays closed, passes no log on and
  in the end owns nothing;
* `keepsClosed_iff` — exactly which runs have this property.

Design notes: acquiring reads the phase before it asks the transport and writes it when
the transport answers, so an operation that began on a pending subscription opens it
whatever happened in between.  `Reopens` names the steps where this undoes a close.  The
other way to keep a handle from being released is to lose it, before or after closing.
-/
import LedgerAbi.Proofs.Subscription.Handles

namespace LedgerAbi

namespace Subscription

/-- A step opens a closed subscription again: an operation that began before receives its handle, and
does not find the end mark first. -/
def Reopens (s : Subscription) : Signal → Prop
  | .acquired operation (.ok _) => ∃ iterating, s.point? operation = some (.acquiring iterating) ∧
    (iterating = true → ∀ rest, s.queue ≠ .endMark :: rest)
  | _ => False

/-- What a closed subscription promises during a run: from then on it is closed and passes no log on,
and once no operation is suspended any more, every handle that the transport returned is released. -/
structure KeepsClosed (s : Subscription) (signals : List Signal) : Prop where
  closed : ∀ before later rest, signals = before ++ later ++ rest →
    (s.run before).1.phase = .closed → (s.run (before ++ later)).1.phase = .closed
  silent : ∀ before later d rest, signals = before ++ later ++ .log d :: rest →
    (s.run before).1.phase = .closed →
    (s.run (before ++ later)).1.step (.log d) = ((s.run (before ++ later)).1, [])
  released : ∀ before rest, signals = before ++ rest → (s.run before).1.phase = .closed →
    (s.run signals).1.suspended = [] →
    (s.ledger signals).acquired.Perm (s.ledger signals).released

theorem Turn.phase_of_closed {s t : Subscription} {operation : Nat} {outputs : List Output}
    (h : Turn operation s t outputs) (hclosed : s.phase = .closed) : t.phase = .closed := by
  cases h with
  | ends c rest hrest => exact hclosed
  | returns d rest hqueue => exact hclosed
  | waits hqueue => exact hclosed
  | closes iterating rest hrest hphase hhandle => rfl
  | releases iterating rest handle hrest hphase hhandle => rfl

/-- Nothing but a handle that is returned changes the phase of a closed subscription. -/
theorem Transition.phase_of_closed {s t : Subscription} {signal : Signal} {outputs : List Output}
    (h : Transition s signal t outputs) (hclosed : s.phase = .closed)
    (hnot : ∀ operation handle, signal ≠ .acquired operation (.ok handle)) : t.phase = .closed := by
  cases h with
  | acquires iterating hbegins hphase => cases hphase.symm.trans hclosed
  | begins hbegins hturn => exact hturn.phase_of_closed hclosed
  | opens hpoint hturn => exact absurd rfl (hnot _ _)
  | confirms hpoint => exact hclosed
  | fails hpoint hfails => exact hclosed
  | resumes hpoint hturn => exact hturn.phase_of_closed hclosed
  | receives hphase houtputs honce => exact hclosed
  | ignores hignores => exact hclosed

/-- A returned handle opens the subscription, unless an iteration step receives it and takes the end
mark in the same turn. -/
theorem phase_step_acquired {s : Subscription} {operation handle : Nat}
    (hclosed : s.phase = .closed) :
    (s.step (.acquired operation (.ok handle))).1.phase = .closed ↔
      ¬ s.Reopens (.acquired operation (.ok handle)) := by
  by_cases hpoint : ∃ iterating, s.point? operation = some (.acquiring iterating)
  · obtain ⟨iterating, hpoint⟩ := hpoint
    simp only [step, hpoint, Reopens]
    -- a start leaves the subscription open, an iteration step goes on to take an item
    cases iterating with
    | false => simp
    | true =>
      cases hqueue : s.queue with
      | nil => simp [takeItem, wake, hqueue, suspend]
      | cons item rest =>
        cases item with
        | endMark => simp [takeItem, wake, hqueue, closeBy, suspend]
        | delivery d => cases d <;> simp [takeItem, wake, hqueue]
  · have hignored : (s.step (.acquired operation (.ok handle))).1 = s := by
      simp only [step]
      split
      · next iterating h => exact absurd ⟨iterating, h⟩ hpoint
      · rfl
    rw [hignored]
    refine iff_of_true hclosed ?_
    rintro ⟨iterating, h, -⟩
    exact hpoint ⟨iterating, h⟩

theorem phase_step_of_closed {s : Subscription} (hclosed : s.phase = .closed) (signal : Signal) :
    (s.step signal).1.phase = .closed ↔ ¬ s.Reopens signal := by
  by_cases hsignal : ∃ operation handle, signal = .acquired operation (.ok handle)
  · obtain ⟨operation, handle, rfl⟩ := hsignal
    exact phase_step_acquired hclosed
  · have hnot : ∀ operation handle, signal ≠ .acquired operation (.ok handle) :=
      fun operation handle h => hsignal ⟨operation, handle, h⟩
    refine iff_of_true ((s.transition signal).phase_of_closed hclosed hnot) fun hreopens => ?_
    unfold Reopens at hreopens
    split at hreopens
    · exact hnot _ _ rfl
    · exact hreopens

/-- A run that does not open a closed subscription again leaves it closed. -/
theorem phase_run_of_closed {s : Subscription} {signals : List Signal}
    (h : Along (fun s signal => s.phase = .closed → ¬ s.Reopens signal) s signals)
    (hclosed : s.phase = .closed) : (s.run signals).1.phase = .closed := by
  induction signals generalizing s with
  | nil => exact hclosed
  | cons signal rest ih => exact ih h.2 ((phase_step_of_closed hclosed signal).mpr (h.1 hclosed))

/-- If all that follows a closed state is closed, no step opens the subscription again. -/
theorem along_of_closed {s : Subscription} {signals : List Signal}
    (h : ∀ before later rest, signals = before ++ later ++ rest →
      (s.run before).1.phase = .closed → (s.run (before ++ later)).1.phase = .closed) :
    Along (fun s signal => s.phase = .closed → ¬ s.Reopens signal) s signals := by
  induction signals generalizing s with
  | nil => trivial
  | cons signal rest ih =>
    refine ⟨fun hclosed => ?_, ih fun before later after heq hbefore => ?_⟩
    · exact (phase_step_of_closed hclosed signal).mp (h [] [signal] rest rfl hclosed)
    · exact h (signal :: before) later after (by rw [heq]; rfl) hbefore

/-- What is left of a ledger when a subscription is closed and nothing is suspended. -/
theorem released_iff {s : Subscription} {l : Ledger} (h : l.Fits s) (hclosed : s.phase = .closed)
    (hdone : s.suspended = []) : l.acquired.Perm l.released ↔ l.lost = [] := by
  -- nothing is held and nothing is under release, so only lost handles can be missing
  have hhandle : s.handle = none := by
    by_contra hsome
    cases hclosed.symm.trans (h.held hsome)
  have hreleasing : l.releasing = [] := by
    have hreleasers := h.releasers
    rw [releasers, hdone] at hreleasers
    exact List.map_eq_nil_iff.mp hreleasers
  have hbalance := h.balance
  rw [hhandle, hreleasing, Option.toList_none, List.map_nil, List.append_nil, List.append_nil]
    at hbalance
  constructor
  · intro hperm
    have hlength := (hbalance.symm.trans hperm).length_eq
    rw [List.length_append] at hlength
    exact List.length_eq_zero_iff.mp (by omega)
  · intro hlost
    rwa [hlost, List.append_nil] at hbalance

/-- **When a closed subscription stays closed and owns nothing.** It does so in a run just when no
operation that began before receives a handle afterwards, but for an iteration step that finds the end
mark first, and when in addition, if the run ends closed with nothing suspended, no handle was returned
while another one was held and no release failed or was given up. -/
theorem keepsClosed_iff (event : BoundEvent) (address : Address) (hasCallback : Bool)
    {signals : List Signal} (hnumbers : (signals.filterMap Signal.begins?).Nodup) :
    KeepsClosed (new event address hasCallback) signals ↔
      Along (fun s signal => s.phase = .closed → ¬ s.Reopens signal)
          (new event address hasCallback) signals ∧
        (((new event address hasCallback).run signals).1.phase = .closed →
          ((new event address hasCallback).run signals).1.suspended = [] →
          Along (fun s signal => ¬ s.Loses signal) (new event address hasCallback) signals) := by
  -- no operation begins twice, so the ledger fits the subscription to the end of the run
  have hnumbered : (new event address hasCallback).Numbered signals := hnumbers
  obtain ⟨hfits, hlost⟩ := (Ledger.fits_new event address hasCallback).follow hnumbered
  have hlost' : ((new event address hasCallback).ledger signals).lost = [] ↔
      Along (fun s signal => ¬ s.Loses signal) (new event address hasCallback) signals :=
    hlost.trans (and_iff_right rfl)
  constructor
  · intro h
    refine ⟨along_of_closed h.closed, fun hclosed hdone => ?_⟩
    have hperm := h.released signals [] (List.append_nil _).symm hclosed hdone
    exact hlost'.mp ((released_iff hfits hclosed hdone).mp hperm)
  · rintro ⟨hstays, howns⟩
    have hclosed : ∀ before later rest, signals = before ++ later ++ rest →
        ((new event address hasCallback).run before).1.phase = .closed →
        ((new event address hasCallback).run (before ++ later)).1.phase = .closed := by
      rintro before later rest rfl hbefore
      rw [List.append_assoc, along_append, along_append] at hstays
      rw [run_append]
      exact phase_run_of_closed hstays.2.1 hbefore
    refine ⟨hclosed, fun before later d rest heq hbefore => ?_, fun before rest heq hbefore hdone => ?_⟩
    · simp only [step, handleLog, hclosed before later _ heq hbefore]
    · have hend : ((new event address hasCallback).run signals).1.phase = .closed := by
        have hall := hclosed before rest [] (by rw [List.append_nil, heq]) hbefore
        rwa [← heq] at hall
      exact (released_iff hfits hend hdone).mpr (hlost'.mpr (howns hend hdone))

/-- An iteration step that acquires, a close, and a start that comes too late. -/
theorem keepsClosed_iff_orderly :
    KeepsClosed (new pinged ⟨List.replicate 20 0, rfl⟩ false)
      [.next 0, .acquired 0 (.ok 0), .close 1, .released 1 (.ok ()), .resume 0, .start 2] := by
  refine (keepsClosed_iff pinged ⟨List.replicate 20 0, rfl⟩ false (by decide)).mpr ⟨?_, fun _ _ => ?_⟩
  · exact ⟨fun _ => id, ⟨fun hclosed => (nomatch hclosed),
      ⟨fun _ => id, ⟨fun _ => id, ⟨fun _ => id, ⟨fun _ => id, trivial⟩⟩⟩⟩⟩⟩
  · exact ⟨id, ⟨fun hloses => hloses.2 rfl, ⟨id, ⟨id, ⟨id, ⟨id, trivial⟩⟩⟩⟩⟩⟩

/-- A handle that comes after closing opens the subscription again. -/
theorem not_keepsClosed_late :
    ¬ KeepsClosed (new pinged ⟨List.replicate 20 0, rfl⟩ true)
      [.start 0, .close 1, .acquired 0 (.ok 0)] := by
  intro h
  have hclosed := h.closed [.start 0, .close 1] [.acquired 0 (.ok 0)] [] rfl rfl
  cases hclosed

end Subscription

end LedgerAbi
