import SingleFlight.Proofs.Flight.Operations
import SingleFlight.Rehearsal.Values

/-!
# What a token tells

The token of an invocation tells that the flight was interrupted or closed at any time, or else that an input was
accepted since the invocation was started. What it tells does not depend on who asks, nor on whether the invocation is
still under way. Only `2 ^ 64` accepted inputs bring the generation back to where the invocation was started.
-/

namespace SingleFlight

theorem Token.isCancelled_eq (t : Token) (s : Signal) : t.isCancelled s = (t.check s).isSome := by
  cases hi : s.interrupted <;> cases hs : t.isSuperseded s <;> simp [isCancelled, check, hi, hs]

section

variable [Payloads]

namespace FlightState

variable {w w' : FlightState} {history later since before : List FlightMoment} {r : Registration} {input copied : Payload}
  {runner : Nat} {token : Token}

theorem Run.counted_since {start : FlightState}
    (h : Run start (since ++ ⟨.start runner, .started (.invoke copied token)⟩ :: before) w) :
    w.flight.signal.generation = token.started + UInt64.ofNat (acceptedCount since) := by
  obtain ⟨v, hstart, hsince⟩ := h.split
  rw [hsince.generation]
  cases hstart with
  | step _ hs =>
      cases step_effect hs with
      | invoked => rfl

/-- What the history of a flight says about a token: whether the flight was ever interrupted or closed, or else whether
an input was accepted since the token was given out. -/
def verdict (history since : List FlightMoment) : Option Cancelled :=
  if history.any FlightMoment.disturbs then some .interrupted
  else if since.any FlightMoment.accepts then some .superseded
  else none

theorem Run.check_eq_verdict
    (h : Run (.of r input) (since ++ ⟨.start runner, .started (.invoke copied token)⟩ :: before) w)
    (hfew : acceptedCount since < UInt64.size) :
    token.check w.flight.signal
      = verdict (since ++ ⟨.start runner, .started (.invoke copied token)⟩ :: before) since := by
  have hcount : w.flight.signal.generation = token.started ↔ since.any FlightMoment.accepts = false := by
    rw [h.counted_since, Signal.counted_eq_iff hfew, acceptedCount_eq_zero]
  have hsuperseded : token.isSuperseded w.flight.signal = since.any FlightMoment.accepts := by
    rw [Bool.eq_iff_iff, Token.isSuperseded, decide_eq_true_iff, ne_eq, hcount, Bool.not_eq_false]
  have hinterrupted := h.interrupted
  rw [show (of r input).flight.signal.interrupted = false from rfl, Bool.false_or] at hinterrupted
  rw [Token.check, verdict, hinterrupted, hsuperseded]

/-- A verdict only gets worse. -/
theorem verdict_later (h : (verdict history since).isSome = true) :
    (verdict (later ++ history) (later ++ since)).isSome = true := by
  revert h
  rw [verdict, verdict, List.any_append, List.any_append]
  cases history.any FlightMoment.disturbs <;> cases since.any FlightMoment.accepts <;>
    cases later.any FlightMoment.disturbs <;> simp

/-- An invocation was started, and less than `2 ^ 64` inputs were accepted since. Its token, and every copy of it, tells
that the flight was interrupted or closed if it ever was, or else that it is superseded if an input was accepted since
the start, or else nothing; and a token that is cancelled stays so. -/
theorem token_tells_history (h : Run (.of r input) history w)
    (hsplit : history = since ++ ⟨.start runner, .started (.invoke copied token)⟩ :: before)
    (hfew : acceptedCount since < UInt64.size) :
    (∀ copy : Token, copy.started = token.started →
      copy.check w.flight.signal = verdict history since ∧
      copy.isCancelled w.flight.signal = (verdict history since).isSome) ∧
    ∀ later w', Run w later w' → acceptedCount (later ++ since) < UInt64.size →
      token.isCancelled w.flight.signal = true → token.isCancelled w'.flight.signal = true := by
  subst hsplit
  have hcheck := h.check_eq_verdict hfew
  refine ⟨fun copy hcopy => ?_, fun later w' hlater hfew' hcancelled => ?_⟩
  · obtain rfl : copy = token := by cases copy; cases token; exact congrArg Token.mk hcopy
    exact ⟨hcheck, by rw [Token.isCancelled_eq, hcheck]⟩
  · have hrun := h.trans hlater
    rw [← List.append_assoc] at hrun
    rw [Token.isCancelled_eq, hcheck] at hcancelled
    rw [Token.isCancelled_eq, hrun.check_eq_verdict hfew', List.append_assoc]
    exact verdict_later hcancelled

end FlightState

end

namespace FlightState

/-- A retry is offered the input that it was started with, and then another one. Its token is superseded, as that of the
first invocation was before; interrupted afterwards, it stays cancelled. -/
theorem retry_superseded_then_interrupted :
    let r : Registration := { id := ⟨0⟩, kind := .get, input := .string }
    let acts : List FlightAct :=
      [ .start 1, .offer (.string "b"), .settle 1 (.ok none), .start 1, .offer (.string "b"), .offer (.string "c") ]
    ∃ history w w' since before, Run (.of r (.string "a")) history w ∧ history.reverse.map FlightMoment.act = acts ∧
      history = since ++ ⟨.start 1, .started (.invoke (.string "b") ⟨1⟩)⟩ :: before ∧ acceptedCount since = 1 ∧
      Token.check ⟨1⟩ w.flight.signal = some .superseded ∧
      Run w [⟨.interrupt, .done⟩] w' ∧ Token.isCancelled ⟨1⟩ w'.flight.signal = true := by
  intro r acts
  obtain ⟨history, w, hr, hacts, since, before, hsplit, hcount, hverdict⟩ : ∃ history w,
      replay acts [] (.of r (.string "a")) = some (history, w) ∧ history.reverse.map FlightMoment.act = acts ∧
      ∃ since before, history = since ++ ⟨.start 1, .started (.invoke (.string "b") ⟨1⟩)⟩ :: before ∧
        acceptedCount since = 1 ∧ verdict history since = some .superseded :=
    ⟨_, _, rfl, rfl, [_, _], [_, _, _], rfl, rfl, rfl⟩
  have hrun := replay_run .start hr
  have hlater : Run w [⟨.interrupt, .done⟩] _ := .step .start rfl
  have hfew : acceptedCount since < UInt64.size := by rw [hcount]; decide
  obtain ⟨htold, hstays⟩ := token_tells_history hrun hsplit hfew
  obtain ⟨hcheck, hcancelled⟩ := htold ⟨1⟩ rfl
  rw [hverdict] at hcheck hcancelled
  exact ⟨history, w, _, since, before, hrun, hacts, hsplit, hcount, hcheck, hlater,
    hstays _ _ hlater hfew hcancelled⟩

end FlightState

end SingleFlight
