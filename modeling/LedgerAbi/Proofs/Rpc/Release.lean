/-
What a log stream holds is released, unless something unforeseen happens.

* `Rpc.Handle` — an open stream with all that was done to the network for it, over the
  signals that reach it;
* `Rpc.Lifetime` — the opening of a stream and the signals to its handle after that;
* `Rpc.Lifetime.Releases` — a session is closed if its stream cannot be opened, and a handle
  that has been closed has no reader, no socket and no session left;
* `Rpc.Lifetime.Leaks` — the ways to leave a session open: a failure of the opening that the
  client does not foresee, or a socket that fails to close;
* `Rpc.Lifetime.releases_iff` — all is released just when it comes to none of them.

Design notes: what is done to the network only grows, so a session that was closed once
counts as closed.  A closed handle never has a reader, and every attempt at closing it closes
the socket, so what is left to say is about the session (`Lifetime.isReleased_iff`).  Of several
attempts the first decides.
-/
import LedgerAbi.Proofs.Rpc.Stream
import Mathlib.Data.List.Basic

namespace LedgerAbi.Rpc

/-! ### Handles -/

/-- How the network behaves while a stream is closed: how its reader ends, and how the closing of the
socket and of the session turn out. -/
structure Closing where
  reading : StepOutcome
  closing : StepOutcome
  ending : StepOutcome

/-- What can happen to the handle of a stream. -/
inductive HandleSignal where
  /-- The socket yields a frame. -/
  | frame (f : Frame)
  /-- The subscriber closes the stream. -/
  | close (c : Closing)

/-- An open stream, and what was done to the network for it. -/
structure Handle where
  stream : Stream
  actions : List NetworkAction

namespace Handle

/-- A handle on a socket after a signal. -/
def step (socket : Nat) (h : Handle) : HandleSignal → Handle
  | .frame f => { h with stream := (h.stream.step (.frame f)).1 }
  | .close c =>
    let closed := closeStream socket c.reading c.closing c.ending
    ⟨(h.stream.step .close).1, h.actions ++ closed.1⟩

def run (socket : Nat) (h : Handle) (signals : List HandleSignal) : Handle :=
  signals.foldl (step socket) h

/-- The reader has ended, and socket and session have been closed. -/
structure IsReleased (socket : Nat) (h : Handle) : Prop where
  reader : h.stream.reader ≠ .reading
  socket : .closeSocket socket ∈ h.actions
  session : .closeSession ∈ h.actions

end Handle

/-! ### Closing -/

/-- A socket that closes is followed by the session, whatever the other steps come to. -/
theorem actions_closeStream_done (socket : Nat) (reading ending : StepOutcome) :
    (closeStream socket reading .done ending).1 = [.closeSocket socket, .closeSession] := by
  cases ending with
  | done =>
    cases reading with
    | done => rfl
    | clientError _ => rfl
    | failure cause => cases cause <;> rfl
  | clientError _ => rfl
  | failure _ => rfl

/-- A socket that fails to close is the last thing that is tried. -/
theorem actions_closeStream_of_ne (socket : Nat) (reading : StepOutcome) {closing : StepOutcome}
    (h : closing ≠ .done) (ending : StepOutcome) :
    (closeStream socket reading closing ending).1 = [.closeSocket socket] := by
  cases closing with
  | done => exact absurd rfl h
  | clientError _ => rfl
  | failure _ => rfl

theorem closeSocket_mem_closeStream (socket : Nat) (reading closing ending : StepOutcome) :
    .closeSocket socket ∈ (closeStream socket reading closing ending).1 := by
  by_cases h : closing = .done
  · rw [h, actions_closeStream_done]
    exact List.mem_cons_self
  · rw [actions_closeStream_of_ne socket reading h]
    exact List.mem_cons_self

theorem closeSession_mem_closeStream_iff {socket : Nat} {reading closing ending : StepOutcome} :
    .closeSession ∈ (closeStream socket reading closing ending).1 ↔ closing = .done := by
  by_cases h : closing = .done
  · rw [h, actions_closeStream_done]
    simp
  · rw [actions_closeStream_of_ne socket reading h]
    simp [h]

namespace Handle

theorem run_append (socket : Nat) (h : Handle) (earlier later : List HandleSignal) :
    h.run socket (earlier ++ later) = (h.run socket earlier).run socket later :=
  List.foldl_append

/-- The session is closed if it was closed before, or if the stream is closed and its socket does not
fail. -/
theorem closeSession_mem_run_iff {socket : Nat} {h : Handle} {signals : List HandleSignal} :
    .closeSession ∈ (h.run socket signals).actions ↔
      .closeSession ∈ h.actions ∨ ∃ c, .close c ∈ signals ∧ c.closing = .done := by
  induction signals generalizing h with
  | nil => simp [run]
  | cons signal rest ih =>
    show .closeSession ∈ ((h.step socket signal).run socket rest).actions ↔ _
    rw [ih]
    cases signal with
    | frame f => simp [step]
    | close c => simp [step, closeSession_mem_closeStream_iff, or_assoc]

end Handle

/-! ### Lifetimes -/

/-- The opening of a stream of logs on a socket, and what happens to its handle if it is opened. -/
structure Lifetime where
  client : Client
  socket : Nat
  address : Value
  signature : Value
  connecting : StepOutcome
  sending : StepOutcome
  signals : List HandleSignal

namespace Lifetime

def opening (l : Lifetime) : OpenResult :=
  openStream l.client l.socket l.address l.signature l.connecting l.sending

/-- The handle that a stream is opened with. -/
def handle (l : Lifetime) : Handle := ⟨.opened l.client.nesting, l.opening.actions⟩

/-- Nothing is left open: neither by an opening that fails, nor by the closing of a handle, whether it
fails or not. -/
structure Releases (l : Lifetime) : Prop where
  opening : ∀ e, l.opening.outcome = .error e → .closeSession ∈ l.opening.actions
  closing : l.opening.outcome = .ok () → ∀ before c after, l.signals = before ++ .close c :: after →
    (l.handle.run l.socket (before ++ [.close c])).IsReleased l.socket

/-- The connection is made, the address can be written and the request is sent. -/
structure IsOpened (l : Lifetime) : Prop where
  connecting : l.connecting = .done
  address : ∃ t, l.address.wireHex = .ok t
  sending : l.sending = .done

/-- Connecting or sending fails in a way that the client foresees. -/
inductive FailsForeseen (l : Lifetime) : Prop where
  | connecting {cause : Text} (h : l.connecting = .clientError cause)
  | sending {t : Text} {cause : Text} (hconnecting : l.connecting = .done)
      (haddress : l.address.wireHex = .ok t) (h : l.sending = .clientError cause)

/-- The stream is not opened, for a reason that the client does not foresee. -/
inductive FailsUnforeseen (l : Lifetime) : Prop where
  | connecting {cause : Fault} (h : l.connecting = .failure cause)
  /-- The address turns out to have no written form when the request is made. -/
  | address {e : Error} (hconnecting : l.connecting = .done) (h : l.address.wireHex = .error e)
  | sending {t : Text} {cause : Fault} (hconnecting : l.connecting = .done)
      (haddress : l.address.wireHex = .ok t) (h : l.sending = .failure cause)

/-- The ways to leave a session open. -/
inductive Leaks (l : Lifetime) : Prop where
  | opening (h : l.FailsUnforeseen)
  /-- The stream is opened, and the socket fails when it is closed for the first time. -/
  | closing (hopened : l.IsOpened) {frames later : List HandleSignal} {c : Closing}
      (hsignals : l.signals = frames ++ .close c :: later)
      (hfirst : ∀ signal ∈ frames, ∃ f, signal = .frame f) (h : c.closing ≠ .done)

variable {l : Lifetime}

theorem opening_of_isOpened (h : l.IsOpened) :
    l.opening.outcome = .ok () ∧ .closeSession ∉ l.opening.actions := by
  obtain ⟨hconnecting, ⟨t, haddress⟩, hsending⟩ := h
  simp [opening, openStream, hconnecting, haddress, hsending]

/-- A failure that is foreseen closes the session. -/
theorem opening_of_failsForeseen (h : l.FailsForeseen) :
    (∃ e, l.opening.outcome = .error e) ∧ .closeSession ∈ l.opening.actions := by
  cases h with
  | connecting h => simp [opening, openStream, h]
  | sending hconnecting haddress h => simp [opening, openStream, hconnecting, haddress, h]

/-- Any other failure leaves it as it is. -/
theorem opening_of_failsUnforeseen (h : l.FailsUnforeseen) :
    (∃ e, l.opening.outcome = .error e) ∧ .closeSession ∉ l.opening.actions := by
  cases h with
  | connecting h => simp [opening, openStream, h]
  | address hconnecting h => simp [opening, openStream, hconnecting, h]
  | sending hconnecting haddress h => simp [opening, openStream, hconnecting, haddress, h]

theorem opening_cases (l : Lifetime) : l.IsOpened ∨ l.FailsForeseen ∨ l.FailsUnforeseen := by
  cases hconnecting : l.connecting with
  | clientError cause => exact Or.inr (Or.inl (.connecting hconnecting))
  | failure cause => exact Or.inr (Or.inr (.connecting hconnecting))
  | done =>
    cases haddress : l.address.wireHex with
    | error e => exact Or.inr (Or.inr (.address hconnecting haddress))
    | ok t =>
      cases hsending : l.sending with
      | done => exact Or.inl ⟨hconnecting, ⟨t, haddress⟩, hsending⟩
      | clientError cause => exact Or.inr (Or.inl (.sending hconnecting haddress hsending))
      | failure cause => exact Or.inr (Or.inr (.sending hconnecting haddress hsending))

/-- A stream that opens is none that fails. -/
theorem isOpened_of_outcome (h : l.opening.outcome = .ok ()) : l.IsOpened := by
  rcases l.opening_cases with hopened | hfails | hfails
  · exact hopened
  · obtain ⟨⟨e, he⟩, -⟩ := opening_of_failsForeseen hfails
    cases h.symm.trans he
  · obtain ⟨⟨e, he⟩, -⟩ := opening_of_failsUnforeseen hfails
    cases h.symm.trans he

end Lifetime

/-- A list of signals with a closing has a first one. -/
theorem exists_first_close {signals : List HandleSignal} {c : Closing} (h : .close c ∈ signals) :
    ∃ frames first later, signals = frames ++ .close first :: later ∧
      ∀ signal ∈ frames, ∃ f, signal = .frame f := by
  induction signals with
  | nil => cases h
  | cons signal rest ih =>
    cases signal with
    | close first => exact ⟨[], first, rest, rfl, List.forall_mem_nil _⟩
    | frame f =>
      rcases List.mem_cons.mp h with h | h
      · cases h
      · obtain ⟨frames, first, later, rfl, hframes⟩ := ih h
        exact ⟨.frame f :: frames, first, later, rfl,
          List.forall_mem_cons.mpr ⟨⟨f, rfl⟩, hframes⟩⟩

namespace Lifetime

variable {l : Lifetime}

/-- A handle whose stream has just been closed is released just when its session is closed. -/
theorem isReleased_iff (l : Lifetime) (before : List HandleSignal) (c : Closing) :
    (l.handle.run l.socket (before ++ [.close c])).IsReleased l.socket ↔
      .closeSession ∈ (l.handle.run l.socket (before ++ [.close c])).actions := by
  refine ⟨fun h => h.session, fun h => ⟨?_, ?_, h⟩⟩
  · rw [Handle.run_append]
    exact Stream.reader_step_close _
  · rw [Handle.run_append]
    exact List.mem_append_right _ (closeSocket_mem_closeStream _ _ _ _)

theorem Leaks.not_releases (hleaks : l.Leaks) : ¬ l.Releases := by
  rintro ⟨hopening, hclosing⟩
  cases hleaks with
  | opening h =>
    obtain ⟨⟨e, he⟩, hkept⟩ := opening_of_failsUnforeseen h
    exact hkept (hopening e he)
  | closing hopened hsignals hfirst h =>
    obtain ⟨hok, hkept⟩ := opening_of_isOpened hopened
    -- neither the opening nor a frame closes the session, so it would be this closing
    rcases Handle.closeSession_mem_run_iff.mp (hclosing hok _ _ _ hsignals).session with
      hclosed | ⟨c, hc, hdone⟩
    · exact hkept hclosed
    · rcases List.mem_append.mp hc with hc | hc
      · obtain ⟨f, hf⟩ := hfirst _ hc
        cases hf
      · cases List.mem_singleton.mp hc
        exact h hdone

/-- **A stream releases all that it holds just when nothing unforeseen happens**: its opening succeeds or
fails as foreseen, and its socket does not fail when it is closed for the first time. -/
theorem releases_iff (l : Lifetime) : l.Releases ↔ ¬ l.Leaks := by
  refine ⟨fun h hleaks => hleaks.not_releases h, fun hleaks => ⟨fun e he => ?_, ?_⟩⟩
  · rcases l.opening_cases with hopened | hfails | hfails
    · cases (opening_of_isOpened hopened).1.symm.trans he
    · exact (opening_of_failsForeseen hfails).2
    · exact absurd (.opening hfails) hleaks
  · intro hok before c after hsignals
    have hmem : HandleSignal.close c ∈ before ++ [.close c] :=
      List.mem_append_right before (List.mem_singleton_self _)
    obtain ⟨frames, first, later, hsplit, hframes⟩ := exists_first_close hmem
    have hfirst : l.signals = frames ++ .close first :: (later ++ after) := by
      rw [hsignals, List.append_cons, hsplit, List.append_assoc, List.cons_append]
    rw [isReleased_iff, Handle.closeSession_mem_run_iff]
    refine Or.inr ⟨first, ?_, ?_⟩
    · rw [hsplit]
      exact List.mem_append_right frames List.mem_cons_self
    · by_contra hfails
      exact hleaks (.closing (isOpened_of_outcome hok) hfirst hframes hfails)

/-- A stream that is opened, ends and is closed, all of which turns out well. -/
def orderly : Lifetime where
  client := .ofArguments "http://node" .none .none .none
  socket := 0
  address := .text (List.replicate 40 (.char '0'))
  signature := .text "AB"
  connecting := .done
  sending := .done
  signals := [.frame .ended, .close ⟨.done, .done, .done⟩]

/-- A closing whose socket fails. -/
def brokenClosing : Closing := ⟨.failure .cancelled, .clientError "broken pipe", .done⟩

/-- A session is left open if connecting fails as nobody foresees, if the address is a number, and if
the socket fails to close. -/
theorem not_releases_unforeseen :
    ¬ { orderly with connecting := .failure .network }.Releases ∧
    ¬ { orderly with address := .int 5 }.Releases ∧
    ¬ { orderly with signals := [.close brokenClosing] }.Releases := by
  refine ⟨Leaks.not_releases ?_, Leaks.not_releases ?_, Leaks.not_releases ?_⟩
  · exact .opening (.connecting rfl)
  · exact .opening (.address rfl rfl)
  · have hsignals : [HandleSignal.close brokenClosing] = [] ++ .close brokenClosing :: [] := rfl
    have hfails : brokenClosing.closing ≠ .done := by
      intro h
      cases h
    exact .closing ⟨rfl, ⟨_, rfl⟩, rfl⟩ hsignals (List.forall_mem_nil _) hfails

end Lifetime

end LedgerAbi.Rpc
