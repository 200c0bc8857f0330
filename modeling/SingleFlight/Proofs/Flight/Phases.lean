import SingleFlight.Proofs.Flight.Operations
import SingleFlight.Rehearsal.Values

/-!
# Phases and outcomes

A completed flight has an outcome, a queued or a closed one has none, whatever is done to the flight and in which
order. So an outcome can be taken from a completed flight and from no other. That closes the flight, and nothing brings
a closed flight back.
-/

namespace SingleFlight

section

variable [Payloads]

/-- The stored outcome fits the phase. A running flight may still have the outcome of an earlier run. -/
structure Flight.Fits (f : Flight) : Prop where
  completed : f.phase = .completed → f.output.isSome = true
  queued : f.phase = .queued → f.output = none
  closed : f.phase = .closed → f.output = none

/-- Both have the same phase, input, outcome, generation and number of attempts. -/
structure Flight.Unmoved (f g : Flight) : Prop where
  phase : g.phase = f.phase
  input : g.input = f.input
  output : g.output = f.output
  generation : g.signal.generation = f.signal.generation
  attempts : g.attempts = f.attempts

theorem Flight.Unmoved.refl (f : Flight) : f.Unmoved f := ⟨rfl, rfl, rfl, rfl, rfl⟩

theorem Flight.Unmoved.trans {f g h : Flight} (hfg : f.Unmoved g) (hgh : g.Unmoved h) : f.Unmoved h :=
  ⟨hgh.phase.trans hfg.phase, hgh.input.trans hfg.input, hgh.output.trans hfg.output,
    hgh.generation.trans hfg.generation, hgh.attempts.trans hfg.attempts⟩

namespace FlightState

variable {w w' : FlightState} {history later : List FlightMoment} {m : FlightMoment} {r : Registration} {input : Payload}

theorem Effect.fits (he : Effect w m w') (h : w.flight.Fits) : w'.flight.Fits := by
  cases he with
  | rejected | incomparable | unchanged | refused | dropped | again | unfailed | missed => exact h
  | superseded | bound | unbound | interrupted => exact ⟨h.completed, h.queued, h.closed⟩
  | rearmed => exact ⟨by simp, fun _ => rfl, fun _ => rfl⟩
  | exhausted | uncopied | invoked => exact ⟨by simp, by simp, by simp⟩
  | stored | failed => exact ⟨fun _ => rfl, by simp, by simp⟩
  | taken | closed => exact ⟨by simp [Flight.close], fun _ => rfl, fun _ => rfl⟩

theorem Run.fits (h : Run (.of r input) history w) : w.flight.Fits :=
  h.invariant (P := fun _ w => w.flight.Fits) ⟨by simp [of, Flight.of], fun _ => rfl, fun _ => rfl⟩
    fun ih he => he.fits ih

theorem take_iff (h : w.flight.Fits) : w.flight.take.2.isSome = true ↔ w.flight.phase = .completed := by
  unfold Flight.take
  split
  · exact iff_of_true (h.completed ‹_›) ‹_›
  · exact iff_of_false (by simp) ‹_›

/-- What is done to a closed flight changes nothing but its binding and the tokens of its runners. -/
theorem Effect.unmoved (he : Effect w m w') (h : w.flight.Fits) (hc : w.flight.phase = .closed) :
    w.flight.Unmoved w'.flight ∧ m.yields = false ∧
      ∀ input, m.act = .offer input → m.answer = .offered .rejected := by
  cases he with
  | rejected => exact ⟨.refl _, rfl, fun _ _ => rfl⟩
  | refused | dropped | unfailed | missed => exact ⟨.refl _, rfl, by simp⟩
  | bound | unbound | interrupted => exact ⟨⟨rfl, rfl, rfl, rfl, rfl⟩, rfl, by simp⟩
  | closed => exact ⟨⟨hc.symm, rfl, (h.closed hc).symm, rfl, rfl⟩, rfl, by simp⟩
  | superseded hp | failed hp => rcases hp with hp | hp <;> cases hp.symm.trans hc
  | rearmed hp | taken hp => cases hp.symm.trans hc
  | incomparable hp | unchanged hp | exhausted hp | uncopied hp | invoked hp | again _ hp | stored _ hp =>
      exact absurd hc hp

theorem Run.unmoved (h : Run w later w') (hfits : w.flight.Fits) (hc : w.flight.phase = .closed) :
    w.flight.Unmoved w'.flight ∧ w'.flight.Fits ∧
      ∀ m ∈ later, m.yields = false ∧ ∀ input, m.act = .offer input → m.answer = .offered .rejected := by
  refine h.invariant (P := fun later w' => w.flight.Unmoved w'.flight ∧ w'.flight.Fits ∧
    ∀ m ∈ later, m.yields = false ∧ ∀ input, m.act = .offer input → m.answer = .offered .rejected)
    ⟨.refl _, hfits, by simp⟩ ?_
  intro later v m v' ⟨hsame, hv, hlater⟩ he
  obtain ⟨hstep, hm⟩ := he.unmoved hv (hsame.phase.trans hc)
  exact ⟨hsame.trans hstep, he.fits hv, List.forall_mem_cons.mpr ⟨hm, hlater⟩⟩

theorem Effect.closed_of_yields (he : Effect w m w') (hy : m.yields = true) :
    w.flight.phase = .completed ∧ w'.flight.phase = .closed := by
  cases he with
  | taken hp => exact ⟨hp, rfl⟩
  | _ => cases hy

/-- Only a closed flight can have given its outcome away, so there is none to be given a second time. -/
theorem Run.yields_once (h : Run (.of r input) history w) :
    history.countP FlightMoment.yields ≤ 1 ∧
      (0 < history.countP FlightMoment.yields → w.flight.phase = .closed) := by
  induction h with
  | start => simp
  | @step history w act w' answer hrun hs ih =>
      have he := step_effect hs
      rw [List.countP_cons]
      by_cases hy : FlightMoment.yields ⟨act, answer⟩ = true
      · obtain ⟨hp, hc⟩ := he.closed_of_yields hy
        have hnone : history.countP FlightMoment.yields = 0 := by
          refine Nat.eq_zero_of_not_pos fun hpos => ?_
          cases hp.symm.trans (ih.2 hpos)
        simp [hnone, hy, hc]
      · simp only [hy, Bool.false_eq_true, ↓reduceIte, Nat.add_zero]
        exact ⟨ih.1, fun hpos => (he.unmoved hrun.fits (ih.2 hpos)).1.phase.trans (ih.2 hpos)⟩

/-- Whatever is done to a flight and in which order: a completed flight has an outcome, a queued or closed one has none;
an outcome can be taken exactly from a completed flight, and it is taken at most once; a closed flight keeps phase,
input, outcome, generation and attempts for good, and rejects every input. -/
theorem phase_fits_outcome (h : Run (.of r input) history w) :
    (w.flight.phase = .completed → w.flight.output.isSome = true) ∧
    (w.flight.phase = .queued ∨ w.flight.phase = .closed → w.flight.output = none) ∧
    (w.flight.take.2.isSome = true ↔ w.flight.phase = .completed) ∧
    history.countP FlightMoment.yields ≤ 1 ∧
    (w.flight.phase = .closed → ∀ later w', Run w later w' → w.flight.Unmoved w'.flight ∧
      ∀ m ∈ later, ∀ input, m.act = .offer input → m.answer = .offered .rejected) := by
  have hfits := h.fits
  refine ⟨hfits.completed, fun hp => hp.elim hfits.queued hfits.closed, take_iff hfits, h.yields_once.1, ?_⟩
  intro hc later w' hlater
  obtain ⟨hsame, -, hrejects⟩ := hlater.unmoved hfits hc
  exact ⟨hsame, fun m hm => (hrejects m hm).2⟩

end FlightState

end

namespace FlightState

/-- A completed flight is run again. An input that comes meanwhile cannot be copied, and the failure of the second run
replaces the outcome of the first one. It is taken, and the closed flight rejects the next input. -/
theorem second_run_fails_and_closes :
    let r : Registration := { id := ⟨0⟩, kind := .get, input := .fragile }
    let acts : List FlightAct :=
      [ .start 1, .settle 1 (.ok none), .start 1, .offer (.fragile "!b"), .settle 1 (.ok none), .start 1,
        .fail "clone failed: !b", .take ]
    ∃ history w w', Run (.of r (.fragile "a")) history w ∧ history.reverse.map FlightMoment.act = acts ∧
      history.countP FlightMoment.yields = 1 ∧ w.flight.phase = .closed ∧ w.flight.output = none ∧
      Run w [⟨.offer (.fragile "c"), .offered .rejected⟩] w' ∧ w.flight.Unmoved w'.flight := by
  intro r acts
  obtain ⟨history, w, hr, hacts, hyields, hc⟩ : ∃ history w, replay acts [] (.of r (.fragile "a")) = some (history, w) ∧
      history.reverse.map FlightMoment.act = acts ∧ history.countP FlightMoment.yields = 1 ∧ w.flight.phase = .closed :=
    ⟨_, _, rfl, rfl, rfl, rfl⟩
  have hrun := replay_run .start hr
  have hoffer : w.step (.offer (.fragile "c")) = some (w, .offered .rejected) := by simp [step, Flight.offer, hc]
  have hlater : Run w [⟨.offer (.fragile "c"), .offered .rejected⟩] w := .step .start hoffer
  obtain ⟨-, hnone, -, -, hkept⟩ := phase_fits_outcome hrun
  exact ⟨history, w, w, hrun, hacts, hyields, hc, hnone (.inr hc), hlater, (hkept hc _ _ hlater).1⟩

end FlightState

end SingleFlight
