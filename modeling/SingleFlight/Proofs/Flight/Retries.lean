import Mathlib.Data.Nat.Find
import SingleFlight.Proofs.Flight.Operations
import SingleFlight.Rehearsal.Values

/-!
# Retries

A run calls the function of its flight again as long as the invocations are superseded. The last invocation is the first
one in whose course no input superseded the one that it was started with, or in whose course the flight was interrupted
or closed. How often the function is called, with which inputs and tokens, and what becomes of the flight is read off the
invocations one by one.
-/

namespace SingleFlight

namespace Flight

section

variable [Payloads]

/-- What is done to a flight in the course of an invocation, by its function or by others. -/
inductive Meddling
  | offer (input : Payload)
  | interrupt
  | close
deriving DecidableEq

def Meddling.act : Meddling → FlightAct
  | offer input => .offer input
  | interrupt => .interrupt
  | close => .close

/-- The flight afterwards, with the answer to an offer; a comparison that panics gives none. -/
def meddle (f : Flight) : Meddling → Flight × Option Offer
  | .offer input =>
    match f.offer input with
    | .ok (g, offer) => (g, some offer)
    | .error _ => (f, none)
  | .interrupt => (f.interrupt, none)
  | .close => (f.close, none)

/-- The flight after all of it was done one after the other, with the answers to the offers. -/
def endure (f : Flight) : List Meddling → Flight × List Offer
  | [] => (f, [])
  | m :: rest => (((f.meddle m).1.endure rest).1, (f.meddle m).2.toList ++ ((f.meddle m).1.endure rest).2)

def token (f : Flight) : Token := ⟨f.signal.generation⟩

/-- The copy of the newest input that an invocation is called with. -/
def given (f : Flight) : Payload := Erased.copied f.input

/-- How a function behaves that is called in a state of its own: what is done to the flight in the course of each
invocation, and what the invocation ends with. -/
structure Conduct (σ : Type) where
  course : σ → Flight → Payload → Token → List Meddling
  ending : σ → Flight → Payload → Token → σ × Except String Outcome

/-- An invocation that notes the input and the token that it is called with. -/
def noted {σ : Type} (call : Invocation σ) : Invocation (σ × List (Payload × Token)) := fun s f input token =>
  let ended := call s.1 f input token
  (((ended.1.1, s.2 ++ [(input, token)]), ended.1.2), ended.2)

namespace Conduct

variable {σ : Type}

def call (c : Conduct σ) : Invocation σ := fun s f input token =>
  (((c.ending s f input token).1, (f.endure (c.course s f input token)).1), (c.ending s f input token).2)

/-- The function's state and the flight after so many invocations, each of them started with a copy of the input that
is the newest one then. -/
def after (c : Conduct σ) (s : σ) (f : Flight) : Nat → σ × Flight
  | 0 => (s, f)
  | n + 1 =>
    let before := c.after s f n
    (c.call before.1 before.2.begun before.2.given before.2.token).1

/-- What is done to the flight in the course of the `i`-th invocation, counted from zero. -/
def courseAt (c : Conduct σ) (s : σ) (f : Flight) (i : Nat) : List Meddling :=
  let before := c.after s f i
  c.course before.1 before.2.begun before.2.given before.2.token

def answersAt (c : Conduct σ) (s : σ) (f : Flight) (i : Nat) : List Offer :=
  ((c.after s f i).2.begun.endure (c.courseAt s f i)).2

def endingAt (c : Conduct σ) (s : σ) (f : Flight) (i : Nat) : Except String Outcome :=
  let before := c.after s f i
  (c.ending before.1 before.2.begun before.2.given before.2.token).2

/-- The inputs and tokens of the first `n` invocations: a copy of the input and the generation of the flight when each
is started. -/
def calls (c : Conduct σ) (s : σ) (f : Flight) (n : Nat) : List (Payload × Token) :=
  (List.range n).map fun i => ((c.after s f i).2.given, (c.after s f i).2.token)

/-- No invocation has to follow the `i`-th one. -/
def IsLast (c : Conduct σ) (s : σ) (f : Flight) (i : Nat) : Prop :=
  .superseded ∉ c.answersAt s f i ∨ .interrupt ∈ c.courseAt s f i ∨ .close ∈ c.courseAt s f i

instance (c : Conduct σ) (s : σ) (f : Flight) : DecidablePred (c.IsLast s f) := fun _ =>
  inferInstanceAs (Decidable (_ ∨ _))

end Conduct

/-! ## The course of an invocation -/

variable {f g h : Flight} {m : Meddling} {ms : List Meddling} {answers more : List Offer} {input : Payload}

/-- The flight is running, or it is closed and has no outcome. -/
def IsUnderWay (f : Flight) : Prop := f.phase = .running ∨ f.phase = .closed ∧ f.output = none

/-- What the course of an invocation leaves of its flight. -/
structure Endured (f : Flight) (ms : List Meddling) (g : Flight) (answers : List Offer) : Prop where
  attempts : g.attempts = f.attempts
  generation : g.signal.generation = f.signal.generation + UInt64.ofNat (answers.count .superseded)
  interrupted : g.signal.interrupted = true ↔ f.signal.interrupted = true ∨ .interrupt ∈ ms ∨ .close ∈ ms
  running : f.phase = .running → .close ∉ ms → g.phase = .running
  closed : f.phase = .closed ∨ .close ∈ ms → g.phase = .closed
  underWay : g.IsUnderWay

theorem Endured.unchanged (hf : f.IsUnderWay) (hno : answers.count .superseded = 0) :
    Endured f [.offer input] f answers := by
  have hgen : f.signal.generation = f.signal.generation + UInt64.ofNat (answers.count .superseded) := by
    rw [hno]; exact (UInt64.add_zero _).symm
  exact ⟨rfl, hgen, by simp, fun hp _ => hp, by simp, hf⟩

theorem meddle_endured (hf : f.IsUnderWay) (m : Meddling) : Endured f [m] (f.meddle m).1 (f.meddle m).2.toList := by
  cases m with
  | interrupt =>
      exact ⟨rfl, (UInt64.add_zero _).symm, by simp [meddle, interrupt, Signal.interrupt], fun hp _ => hp,
        by simp [meddle, interrupt], hf⟩
  | close =>
      exact ⟨rfl, (UInt64.add_zero _).symm, by simp [meddle, close, Signal.interrupt], by simp, fun _ => rfl,
        .inr ⟨rfl, rfl⟩⟩
  | offer input =>
      cases hoffer : f.offer input with
      | error message =>
          simp only [meddle, hoffer]
          exact .unchanged hf rfl
      | ok offered =>
          obtain ⟨g, offer⟩ := offered
          have hstep : FlightState.step { flight := f } (.offer input) = some ({ flight := g }, .offered offer) := by
            simp [FlightState.step, hoffer]
          simp only [meddle, hoffer]
          cases FlightState.offer_effect hstep with
          | rejected | unchanged => exact .unchanged hf rfl
          | superseded => exact ⟨rfl, rfl, by simp [Signal.bump], fun hp _ => hp, by simp, hf⟩
          | rearmed hp =>
              have hp : f.phase = .completed := hp
              simp [IsUnderWay, hp] at hf

theorem Endured.trans (hfg : Endured f [m] g answers) (hgh : Endured g ms h more) :
    Endured f (m :: ms) h (answers ++ more) where
  attempts := hgh.attempts.trans hfg.attempts
  generation := by
    rw [hgh.generation, hfg.generation, List.count_append, UInt64.ofNat_add, UInt64.add_assoc]
  interrupted := by
    rw [hgh.interrupted, hfg.interrupted]
    grind
  running hp hno := by
    obtain ⟨hm, hms⟩ := not_or.mp (mt List.mem_cons.mpr hno)
    exact hgh.running (hfg.running hp (by simpa using hm)) hms
  closed hc := by
    rw [List.mem_cons, ← or_assoc] at hc
    exact hgh.closed (hc.imp_left fun hc => hfg.closed (by simpa using hc))
  underWay := hgh.underWay

theorem endure_endured (hf : f.IsUnderWay) (ms : List Meddling) : Endured f ms (f.endure ms).1 (f.endure ms).2 := by
  induction ms generalizing f with
  | nil => exact ⟨rfl, (UInt64.add_zero _).symm, by simp [endure], fun hp _ => hp, by simp [endure], hf⟩
  | cons m ms ih =>
      have hm := meddle_endured hf m
      exact hm.trans (ih hm.underWay)

/-! ## Invocations as histories -/

theorem meddle_step (w : FlightState) (m : Meddling) :
    ∃ answer, w.step m.act = some ({ w with flight := (w.flight.meddle m).1 }, answer) := by
  cases m with
  | offer input => cases h : w.flight.offer input <;> simp [Meddling.act, FlightState.step, meddle, h]
  | interrupt | close => exact ⟨_, rfl⟩

theorem endure_history (w : FlightState) (ms : List Meddling) :
    ∃ history, w.Run history { w with flight := (w.flight.endure ms).1 } := by
  induction ms generalizing w with
  | nil => exact ⟨[], .start⟩
  | cons m ms ih =>
      obtain ⟨answer, hm⟩ := meddle_step w m
      obtain ⟨history, hrest⟩ := ih { w with flight := (w.flight.meddle m).1 }
      exact ⟨_, (FlightState.Run.start.step hm).trans hrest⟩

theorem invocation_history {tokens : Nat → Option Token} {runner : Nat} {token : Token} (hfree : tokens runner = none)
    (hstart : f.start = (g, .invoke input token)) (ms : List Meddling) (outcome : Outcome) :
    ∃ history, FlightState.Run ⟨f, tokens⟩ history ⟨((g.endure ms).1.settle token outcome).1, tokens⟩ := by
  let started : FlightState := ⟨g, FlightState.assign ⟨f, tokens⟩ runner (some token)⟩
  have hstep : FlightState.step ⟨f, tokens⟩ (.start runner) = some (started, .started (.invoke input token)) := by
    simp [FlightState.step, hfree, hstart, started]
  obtain ⟨history, hcourse⟩ := endure_history started ms
  have hreturned : FlightState.assign { started with flight := (g.endure ms).1 } runner none = tokens := by
    funext other
    by_cases ho : other = runner <;> simp [started, FlightState.assign, ho, hfree]
  have hsettle : FlightState.step { started with flight := (g.endure ms).1 } (.settle runner outcome)
      = some (⟨((g.endure ms).1.settle token outcome).1, tokens⟩,
        .settled ((g.endure ms).1.settle token outcome).2) := by
    rw [FlightState.step, hreturned]
    simp [started, FlightState.assign]
  exact ⟨_, ((FlightState.Run.start.step hstep).trans hcourse).step hsettle⟩

/-! ## Invocations one after the other -/

namespace Conduct

variable {σ : Type} {c : Conduct σ} {s : σ} {i k n : Nat}

/-- The flight can be started, and it is not interrupted. -/
structure Ready (f g : Flight) (i : Nat) : Prop where
  notClosed : g.phase ≠ .closed
  calm : g.signal.interrupted = false
  attempts : g.attempts = f.attempts + i

theorem course_endured (c : Conduct σ) (s : σ) (f : Flight) (i : Nat) :
    Endured (c.after s f i).2.begun (c.courseAt s f i) (c.after s f (i + 1)).2 (c.answersAt s f i) :=
  endure_endured (.inl rfl) _

theorem not_isLast (h : ¬c.IsLast s f i) :
    .superseded ∈ c.answersAt s f i ∧ .interrupt ∉ c.courseAt s f i ∧ .close ∉ c.courseAt s f i := by
  simpa only [IsLast, not_or, Decidable.not_not] using h

theorem Ready.next (h : Ready f (c.after s f i).2 i) (hnot : ¬c.IsLast s f i) :
    Ready f (c.after s f (i + 1)).2 (i + 1) := by
  obtain ⟨-, hinterrupt, hclose⟩ := not_isLast hnot
  have hcourse := c.course_endured s f i
  refine ⟨by simp [hcourse.running rfl hclose], ?_, ?_⟩
  · have := hcourse.interrupted
    simpa [begun, h.calm, hinterrupt, hclose] using this
  · rw [hcourse.attempts, begun, h.attempts, Nat.add_assoc]

theorem ready (hqueued : f.phase = .queued) (hcalm : f.signal.interrupted = false) (hnot : ∀ j < i, ¬c.IsLast s f j) :
    Ready f (c.after s f i).2 i := by
  induction i with
  | zero => exact ⟨by simp [after, hqueued], hcalm, rfl⟩
  | succ i ih => exact (ih fun j hj => hnot j (Nat.lt_succ_of_lt hj)).next (hnot i (Nat.lt_succ_self i))

theorem Ready.start (h : Ready f g i) (hcopy : ∃ copy, g.input.copy = .ok copy)
    (hattempts : f.attempts + i + 1 < attemptLimit) : g.start = (g.begun, .invoke g.given g.token) := by
  obtain ⟨copy, hcopy⟩ := hcopy
  have hlimit : ¬attemptLimit ≤ g.attempts + 1 := by rw [h.attempts]; omega
  simp only [Flight.start, h.notClosed, hlimit, hcopy, ↓reduceIte, begun, token, given,
    Payload.copied_of_copy hcopy]

theorem settle_again (h : Ready f (c.after s f i).2 i) (hnot : ¬c.IsLast s f i)
    (hfew : (c.answersAt s f i).count .superseded < UInt64.size) (outcome : Outcome) :
    (c.after s f (i + 1)).2.settle (c.after s f i).2.token outcome = ((c.after s f (i + 1)).2, .again) := by
  have hnext := h.next hnot
  have hgen : (c.after s f (i + 1)).2.signal.generation ≠ (c.after s f i).2.token.started := by
    rw [(c.course_endured s f i).generation]
    intro he
    have hpos := List.count_pos_iff.mpr (not_isLast hnot).1
    have := (Signal.counted_eq_iff hfew).mp he
    omega
  simp [settle, hnext.notClosed, hnext.calm, Token.isSuperseded, hgen]

theorem settle_stored (hlast : c.IsLast s f i) (hopen : .close ∉ c.courseAt s f i) (outcome : Outcome) :
    (c.after s f (i + 1)).2.settle (c.after s f i).2.token outcome
      = ({ (c.after s f (i + 1)).2 with output := some outcome, phase := .completed }, .stored) := by
  have hcourse := c.course_endured s f i
  have hp := hcourse.running rfl hopen
  have hkept : (!(c.after s f (i + 1)).2.signal.interrupted &&
      (c.after s f i).2.token.isSuperseded (c.after s f (i + 1)).2.signal) = false := by
    rcases hlast with hno | hinterrupt | hclose
    · have hgen : (c.after s f (i + 1)).2.signal.generation = (c.after s f i).2.token.started := by
        rw [hcourse.generation, List.count_eq_zero.mpr hno]
        exact UInt64.add_zero _
      simp [Token.isSuperseded, hgen]
    · simp [hcourse.interrupted.mpr (.inr (.inl hinterrupt))]
    · exact absurd hclose hopen
  simp [settle, hp, hkept]

theorem settle_dropped (hclose : .close ∈ c.courseAt s f i) (token : Token) (outcome : Outcome) :
    (c.after s f (i + 1)).2.settle token outcome = ((c.after s f (i + 1)).2, .dropped) := by
  simp [settle, (c.course_endured s f i).closed (.inr hclose)]

/-! ## Runs -/

theorem calls_succ (c : Conduct σ) (s : σ) (f : Flight) (i : Nat) :
    c.calls s f (i + 1) = c.calls s f i ++ [((c.after s f i).2.given, (c.after s f i).2.token)] := by
  simp [calls, List.range_succ]

/-- Noting the calls changes nothing else. -/
theorem run_noted (call : Invocation σ) (fuel : Nat) (s : σ) (f : Flight) (log : List (Payload × Token)) :
    f.run call fuel s = (((f.run (noted call) fuel (s, log)).1.1.1, (f.run (noted call) fuel (s, log)).1.2),
      (f.run (noted call) fuel (s, log)).2) := by
  induction fuel generalizing s f log with
  | zero => rfl
  | succ fuel ih =>
      simp only [run, noted]
      cases f.start with
      | mk g start =>
          cases start with
          | refused | panicked => rfl
          | invoke input token =>
              dsimp only
              cases (call s g input token).1.2.settle token (caught (call s g input token).2) with
              | mk settled settlement =>
                  cases settlement with
                  | dropped | stored => rfl
                  | again => exact ih _ _ _

/-- One more call of the function: the run goes on with what the flight makes of the outcome. -/
theorem run_once (h : Ready f (c.after s f i).2 i) (hcopy : ∃ copy, (c.after s f i).2.input.copy = .ok copy)
    (hattempts : f.attempts + i + 1 < attemptLimit) (fuel : Nat) :
    (c.after s f i).2.run (noted c.call) (fuel + 1) ((c.after s f i).1, c.calls s f i)
      = match (c.after s f (i + 1)).2.settle (c.after s f i).2.token (caught (c.endingAt s f i)) with
        | (g, .dropped) => ((((c.after s f (i + 1)).1, c.calls s f (i + 1)), g), .dropped)
        | (g, .stored) => ((((c.after s f (i + 1)).1, c.calls s f (i + 1)), g), .stored)
        | (g, .again) => g.run (noted c.call) fuel ((c.after s f (i + 1)).1, c.calls s f (i + 1)) := by
  rw [run, h.start hcopy hattempts, calls_succ]
  rfl

/-- The run comes to the `i`-th invocation if none before it is the last one. -/
theorem run_reaches (hqueued : f.phase = .queued) (hcalm : f.signal.interrupted = false)
    (hcopies : ∀ j < i, ∃ copy, (c.after s f j).2.input.copy = .ok copy)
    (hfew : ∀ j < i, (c.answersAt s f j).count .superseded < UInt64.size) (hattempts : f.attempts + i < attemptLimit)
    (hnot : ∀ j < i, ¬c.IsLast s f j) (fuel : Nat) :
    f.run (noted c.call) (i + fuel) (s, [])
      = (c.after s f i).2.run (noted c.call) fuel ((c.after s f i).1, c.calls s f i) := by
  induction i generalizing fuel with
  | zero => rw [Nat.zero_add]; rfl
  | succ i ih =>
      have hbefore := ih (fun j hj => hcopies j (Nat.lt_succ_of_lt hj)) (fun j hj => hfew j (Nat.lt_succ_of_lt hj))
        (by omega) (fun j hj => hnot j (Nat.lt_succ_of_lt hj)) (fuel + 1)
      have hready : Ready f (c.after s f i).2 i := ready hqueued hcalm fun j hj => hnot j (Nat.lt_succ_of_lt hj)
      have hself := Nat.lt_succ_self i
      rw [show i + 1 + fuel = i + (fuel + 1) by omega, hbefore, run_once hready (hcopies i hself) (by omega),
        settle_again hready (hnot i hself) (hfew i hself)]

/-- A run is a history of the flight in which one runner starts and settles the invocations. -/
theorem run_history {tokens : Nat → Option Token} {runner : Nat} (hfree : tokens runner = none) (c : Conduct σ)
    (fuel : Nat) (s : σ) (f : Flight) :
    ∃ history, FlightState.Run ⟨f, tokens⟩ history ⟨(f.run c.call fuel s).1.2, tokens⟩ := by
  induction fuel generalizing s f with
  | zero => exact ⟨[], .start⟩
  | succ fuel ih =>
      cases hstart : f.start with
      | mk g start =>
          have hstarted (h : ∀ input token, start ≠ .invoke input token) :
              FlightState.step ⟨f, tokens⟩ (.start runner) = some (⟨g, tokens⟩, .started start) := by
            cases start <;> simp_all [FlightState.step]
          cases start with
          | refused | panicked =>
              simp only [run, hstart]
              exact ⟨_, FlightState.Run.start.step (hstarted (by simp))⟩
          | invoke input token =>
              obtain ⟨history, hinvoked⟩ := invocation_history hfree hstart (c.course s g input token)
                (caught (c.ending s g input token).2)
              simp only [run, hstart, call]
              cases hsettle : (g.endure (c.course s g input token)).1.settle token (caught (c.ending s g input token).2) with
              | mk settled settlement =>
                  rw [hsettle] at hinvoked
                  cases settlement with
                  | dropped | stored => exact ⟨history, hinvoked⟩
                  | again =>
                      obtain ⟨later, hlater⟩ := ih (c.ending s g input token).1 settled
                      exact ⟨_, hinvoked.trans hlater⟩

/-- A queued flight that is not interrupted is run, and the `n`-th invocation needs no other one after it. Then the run
ends with the first such invocation: the function is called once for each invocation up to it, with a copy of the input
and the generation of the flight at the start; each call is counted as an attempt; and the flight is closed and has no outcome if
it was closed in the course of the last invocation, else it is completed with the outcome of that invocation. With room
for fewer invocations the run is not at its end. -/
theorem run_ends_with_first_last (c : Conduct σ) (s : σ) {f : Flight} {n : Nat} (hqueued : f.phase = .queued)
    (hcalm : f.signal.interrupted = false) (hcopies : ∀ i ≤ n, ∃ copy, (c.after s f i).2.input.copy = .ok copy)
    (hfew : ∀ i ≤ n, (c.answersAt s f i).count .superseded < UInt64.size) (hattempts : f.attempts + n + 1 < attemptLimit)
    (hlast : c.IsLast s f n) :
    ∃ k ≤ n, c.IsLast s f k ∧ (∀ i < k, ¬c.IsLast s f i) ∧
      (∃ g ended,
        (∀ fuel, k < fuel → f.run c.call fuel s = (((c.after s f (k + 1)).1, g), ended) ∧
          (f.run (noted c.call) fuel (s, [])).1.1.2 = c.calls s f (k + 1)) ∧
        g.attempts = f.attempts + (k + 1) ∧
        if .close ∈ c.courseAt s f k then ended = .dropped ∧ g.phase = .closed ∧ g.output = none
        else ended = .stored ∧ g.phase = .completed ∧ g.output = some (caught (c.endingAt s f k))) ∧
      ∀ fuel ≤ k, (f.run c.call fuel s).2 = .unfinished := by
  have hend : ∃ i, c.IsLast s f i := ⟨n, hlast⟩
  have hkn : Nat.find hend ≤ n := Nat.find_min' hend hlast
  have hk : c.IsLast s f (Nat.find hend) := Nat.find_spec hend
  have hnot : ∀ i < Nat.find hend, ¬c.IsLast s f i := fun i hi => Nat.find_min hend hi
  generalize Nat.find hend = k at hkn hk hnot
  have hreaches {i : Nat} (hi : i ≤ k) (fuel : Nat) := run_reaches hqueued hcalm
    (fun j hj => hcopies j (by omega)) (fun j hj => hfew j (by omega)) (by omega : f.attempts + i < attemptLimit)
    (fun j hj => hnot j (by omega)) fuel
  have hready : Ready f (c.after s f k).2 k := ready hqueued hcalm hnot
  have hattempted : (c.after s f (k + 1)).2.attempts = f.attempts + (k + 1) := by
    rw [(c.course_endured s f k).attempts, begun, hready.attempts, Nat.add_assoc]
  have hlastCall {fuel : Nat} (hfuel : k < fuel) : ∃ rest, f.run (noted c.call) fuel (s, [])
      = (c.after s f k).2.run (noted c.call) (rest + 1) ((c.after s f k).1, c.calls s f k) :=
    ⟨fuel - k - 1, by rw [← hreaches (Nat.le_refl k)]; congr 1; omega⟩
  have hdone {g : Flight} {ended : RunEnd} {fuel : Nat} (hrun : f.run (noted c.call) fuel (s, [])
      = ((((c.after s f (k + 1)).1, c.calls s f (k + 1)), g), ended)) :
      f.run c.call fuel s = (((c.after s f (k + 1)).1, g), ended) ∧
        (f.run (noted c.call) fuel (s, [])).1.1.2 = c.calls s f (k + 1) := by
    rw [run_noted c.call fuel s f [], hrun]
    exact ⟨rfl, rfl⟩
  refine ⟨k, hkn, hk, hnot, ?_, fun fuel hfuel => ?_⟩
  · by_cases hclose : .close ∈ c.courseAt s f k
    · have hclosed := (c.course_endured s f k).closed (.inr hclose)
      refine ⟨(c.after s f (k + 1)).2, .dropped, fun fuel hfuel => hdone ?_, hattempted, ?_⟩
      · obtain ⟨rest, hrest⟩ := hlastCall hfuel
        rw [hrest, run_once hready (hcopies k hkn) (by omega), settle_dropped hclose]
      · rw [if_pos hclose]
        exact ⟨rfl, hclosed, (c.course_endured s f k).underWay.elim (by simp [hclosed]) And.right⟩
    · refine ⟨{ (c.after s f (k + 1)).2 with output := some (caught (c.endingAt s f k)), phase := .completed }, .stored,
        fun fuel hfuel => hdone ?_, hattempted, ?_⟩
      · obtain ⟨rest, hrest⟩ := hlastCall hfuel
        rw [hrest, run_once hready (hcopies k hkn) (by omega), settle_stored hk hclose]
      · rw [if_neg hclose]
        exact ⟨rfl, rfl, rfl⟩
  · rw [run_noted c.call fuel s f [], ← Nat.add_zero fuel, hreaches hfuel]
    rfl

end Conduct

end

namespace Conduct

/-- The first invocation is superseded and the second one is not: the function is called twice. -/
theorem superseded_once_called_twice :
    let f : Flight := .of { id := ⟨0⟩, kind := .get, input := .string } (.string "a")
    let c : Conduct Nat :=
      { course := fun i _ _ _ => if i = 0 then [.offer (.string "b"), .offer (.string "b")] else []
        ending := fun i _ _ _ => (i + 1, .ok (.ok none)) }
    c.answersAt 0 f 0 = [.superseded, .unchanged] ∧ c.answersAt 0 f 1 = [] ∧
      ∃ g : Flight, g.phase = .completed ∧ g.attempts = 2 ∧ (f.run c.call 1 0).2 = .unfinished ∧
        ∀ fuel, 1 < fuel → f.run c.call fuel 0 = ((2, g), .stored) ∧
          (f.run (noted c.call) fuel (0, [])).1.1.2 = [(.string "a", ⟨0⟩), (.string "b", ⟨1⟩)] := by
  intro f c
  have hfirst : c.answersAt 0 f 0 = [.superseded, .unchanged] := rfl
  have hsecond : c.answersAt 0 f 1 = [] := rfl
  have hcopies : ∀ i ≤ 1, ∃ copy, (c.after 0 f i).2.input.copy = .ok copy := by
    intro i hi
    match i, hi with
    | 0, _ => exact ⟨_, rfl⟩
    | 1, _ => exact ⟨_, rfl⟩
  have hfew : ∀ i ≤ 1, (c.answersAt 0 f i).count .superseded < UInt64.size := by
    intro i hi
    match i, hi with
    | 0, _ => rw [hfirst]; decide
    | 1, _ => rw [hsecond]; decide
  obtain ⟨k, hk, hlast, -, ⟨g, ended, hrun, hattempts, hended⟩, hshort⟩ :=
    run_ends_with_first_last c 0 rfl rfl hcopies hfew (by decide) (.inl (by rw [hsecond]; decide))
  have hmore : k ≠ 0 := by
    rintro rfl
    exact absurd hlast (by simp [IsLast, hfirst, courseAt, c, after])
  obtain rfl : k = 1 := by omega
  rw [if_neg (by decide)] at hended
  obtain ⟨rfl, hphase, -⟩ := hended
  exact ⟨hfirst, hsecond, g, hphase, hattempts, hshort 1 (Nat.le_refl 1), hrun⟩

end Conduct

end Flight

end SingleFlight
