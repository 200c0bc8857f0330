import SingleFlight.Flight.Run

/-!
# Operations on a flight

Sequences of operations on one flight, by whoever has it in hand. A run of the flight is a start and, when the
function has ended, a settling by the same runner; what happens to the flight in between comes between them. A
history lists the operations with their answers, newest first.
-/

namespace SingleFlight

variable [Payloads]

/-- The flight with one more invocation under way. -/
def Flight.begun (f : Flight) : Flight := { f with phase := .running, attempts := f.attempts + 1 }

/-- The flight with a newer input. -/
def Flight.renewed (f : Flight) (input : Payload) : Flight := { f with input, signal := f.signal.bump }

/-- The flight with its outcome taken. -/
def Flight.landed (f : Flight) : Flight := { f with phase := .closed, output := none }

/-- One operation. -/
inductive FlightAct
  | offer (input : Payload)
  | start (runner : Nat)
  | settle (runner : Nat) (outcome : Outcome)
  | fail (message : String)
  | bind (worker : String)
  | unbind (worker : String)
  | take
  | interrupt
  | close

/-- What an operation answers. -/
inductive FlightAnswer
  | offered (offer : Offer)
  /-- The comparison with the pending input panicked. -/
  | incomparable (message : String)
  | started (start : Start)
  | settled (settlement : Settlement)
  | taken (outcome : Option Outcome)
  | done

/-- An operation that was made, with its answer. -/
structure FlightMoment where
  act : FlightAct
  answer : FlightAnswer

/-- A flight with the tokens of the invocations that are under way, by runner. -/
structure FlightState where
  flight : Flight
  tokens : Nat → Option Token := fun _ => none

namespace FlightMoment

/-- An input was offered and is the newest one now. -/
def accepts (m : FlightMoment) : Bool :=
  match m.answer with
  | .offered .superseded => true
  | .offered .rearmed => true
  | _ => false

/-- The newest input was copied for an invocation, or its copy panicked. -/
def attempts (m : FlightMoment) : Bool :=
  match m.answer with
  | .started (.invoke _ _) => true
  | .started (.panicked message) => message ≠ Flight.attemptOverflow
  | _ => false

/-- An outcome was taken. -/
def yields (m : FlightMoment) : Bool :=
  match m.answer with
  | .taken (some _) => true
  | _ => false

/-- The flight was interrupted or closed. -/
def disturbs (m : FlightMoment) : Bool :=
  match m.act with
  | .interrupt => true
  | .close => true
  | _ => false

/-- The runner settled its invocation. -/
def settles (runner : Nat) (m : FlightMoment) : Bool :=
  match m.act with
  | .settle other _ => other = runner
  | _ => false

end FlightMoment

namespace FlightState

/-- A new flight of the action. -/
def of (r : Registration) (input : Payload) : FlightState := { flight := .of r input }

/-- The runner has this token, or none any more. -/
def assign (w : FlightState) (runner : Nat) (token : Option Token) : Nat → Option Token :=
  fun other => if other = runner then token else w.tokens other

/-- One operation, `none` if the runner cannot make it now. -/
def step (w : FlightState) : FlightAct → Option (FlightState × FlightAnswer)
  | .offer input =>
    match w.flight.offer input with
    | .error message => some (w, .incomparable message)
    | .ok (f, offer) => some ({ w with flight := f }, .offered offer)
  | .start runner =>
    if (w.tokens runner).isSome then none
    else
      match w.flight.start with
      | (f, .invoke input token) =>
        some ({ flight := f, tokens := w.assign runner (some token) }, .started (.invoke input token))
      | (f, start) => some ({ w with flight := f }, .started start)
  | .settle runner outcome =>
    (w.tokens runner).map fun token =>
      ({ flight := (w.flight.settle token outcome).1, tokens := w.assign runner none },
        .settled (w.flight.settle token outcome).2)
  | .fail message => some ({ w with flight := w.flight.fail message }, .done)
  | .bind worker => some ({ w with flight := w.flight.bind worker }, .done)
  | .unbind worker => some ({ w with flight := w.flight.unbind worker }, .done)
  | .take => some ({ w with flight := w.flight.take.1 }, .taken w.flight.take.2)
  | .interrupt => some ({ w with flight := w.flight.interrupt }, .done)
  | .close => some ({ w with flight := w.flight.close }, .done)

/-- `Run start history w`: the operations of the history lead from `start` to `w`. -/
inductive Run (start : FlightState) : List FlightMoment → FlightState → Prop
  | start : Run start [] start
  | step {history w act w' answer} : Run start history w → w.step act = some (w', answer) →
      Run start ({ act, answer } :: history) w'

/-- Makes the operations of a list one after the other, added to a history. -/
def replay : List FlightAct → List FlightMoment → FlightState → Option (List FlightMoment × FlightState)
  | [], history, w => some (history, w)
  | act :: acts, history, w => (w.step act).bind fun (w, answer) => replay acts ({ act, answer } :: history) w

theorem replay_run {start : FlightState} : ∀ {acts : List FlightAct} {history history' : List FlightMoment}
    {w w' : FlightState}, Run start history w → replay acts history w = some (history', w') → Run start history' w'
  | [], _, _, _, _, h, hr => by cases hr; exact h
  | act :: acts, history, history', w, w', h, hr => by
      obtain ⟨⟨next, answer⟩, hs, hr⟩ := Option.bind_eq_some_iff.mp hr
      exact replay_run (h.step hs) hr

/-! ## What an operation does -/

/-- `Effect w m w'`: the operation of the moment takes the flight and its tokens from `w` to `w'`. -/
inductive Effect (w : FlightState) : FlightMoment → FlightState → Prop
  | rejected {input} : w.flight.phase = .closed → Effect w ⟨.offer input, .offered .rejected⟩ w
  | incomparable {input message} : w.flight.phase ≠ .closed → Effect w ⟨.offer input, .incomparable message⟩ w
  | unchanged {input} : w.flight.phase ≠ .closed → Effect w ⟨.offer input, .offered .unchanged⟩ w
  | superseded {input} : w.flight.phase = .queued ∨ w.flight.phase = .running →
      Effect w ⟨.offer input, .offered .superseded⟩
        { w with flight := { w.flight with input, signal := w.flight.signal.bump } }
  | rearmed {input} : w.flight.phase = .completed →
      Effect w ⟨.offer input, .offered .rearmed⟩
        { w with flight :=
            { w.flight with input, signal := w.flight.signal.bump, output := none, phase := .queued } }
  | refused {runner} : w.flight.phase = .closed → Effect w ⟨.start runner, .started .refused⟩ w
  | exhausted {runner} : w.flight.phase ≠ .closed → Flight.attemptLimit ≤ w.flight.attempts + 1 →
      Effect w ⟨.start runner, .started (.panicked Flight.attemptOverflow)⟩
        { w with flight := { w.flight with phase := .running } }
  | uncopied {runner message} : w.flight.phase ≠ .closed → w.flight.input.copy = .error message →
      Effect w ⟨.start runner, .started (.panicked message)⟩
        { w with flight := { w.flight with phase := .running, attempts := w.flight.attempts + 1 } }
  | invoked {runner input} : w.flight.phase ≠ .closed → w.flight.input.copy = .ok input →
      Effect w ⟨.start runner, .started (.invoke input ⟨w.flight.signal.generation⟩)⟩
        { flight := { w.flight with phase := .running, attempts := w.flight.attempts + 1 }
          tokens := w.assign runner (some ⟨w.flight.signal.generation⟩) }
  | dropped {runner token outcome} : w.tokens runner = some token → w.flight.phase = .closed →
      Effect w ⟨.settle runner outcome, .settled .dropped⟩ { w with tokens := w.assign runner none }
  | again {runner token outcome} : w.tokens runner = some token → w.flight.phase ≠ .closed →
      w.flight.signal.interrupted = false → w.flight.signal.generation ≠ token.started →
      Effect w ⟨.settle runner outcome, .settled .again⟩ { w with tokens := w.assign runner none }
  | stored {runner token outcome} : w.tokens runner = some token → w.flight.phase ≠ .closed →
      w.flight.signal.interrupted = true ∨ w.flight.signal.generation = token.started →
      Effect w ⟨.settle runner outcome, .settled .stored⟩
        { flight := { w.flight with output := some outcome, phase := .completed }, tokens := w.assign runner none }
  | failed {message} : w.flight.phase = .queued ∨ w.flight.phase = .running →
      Effect w ⟨.fail message, .done⟩
        { w with flight := { w.flight with output := some (.error (.panicked message)), phase := .completed } }
  | unfailed {message} : w.flight.phase = .completed ∨ w.flight.phase = .closed → Effect w ⟨.fail message, .done⟩ w
  | bound {worker} {name : Option String} : Effect w ⟨.bind worker, .done⟩ { w with flight := { w.flight with worker := name } }
  | unbound {worker} {name : Option String} :
      Effect w ⟨.unbind worker, .done⟩ { w with flight := { w.flight with worker := name } }
  | taken {outcome} : w.flight.phase = .completed → w.flight.output = outcome →
      Effect w ⟨.take, .taken outcome⟩ { w with flight := { w.flight with phase := .closed, output := none } }
  | missed : w.flight.phase ≠ .completed → Effect w ⟨.take, .taken none⟩ w
  | interrupted : Effect w ⟨.interrupt, .done⟩ { w with flight := w.flight.interrupt }
  | closed : Effect w ⟨.close, .done⟩ { w with flight := w.flight.close }

variable {w w' : FlightState} {act : FlightAct} {answer : FlightAnswer} {history since : List FlightMoment}
  {m : FlightMoment} {runner : Nat} {token : Token}

theorem offer_effect {input : Payload} (h : w.step (.offer input) = some (w', answer)) :
    Effect w ⟨.offer input, answer⟩ w' := by
  simp only [step, Flight.offer] at h
  by_cases hc : w.flight.phase = .closed
  · simp only [hc, ↓reduceIte, Option.some.injEq, Prod.mk.injEq] at h
    obtain ⟨rfl, rfl⟩ := h
    exact .rejected hc
  · cases hp : w.flight.input.compare input with
    | error message =>
        simp only [hc, hp, ↓reduceIte, Option.some.injEq, Prod.mk.injEq] at h
        obtain ⟨rfl, rfl⟩ := h
        exact .incomparable hc
    | ok equal =>
        cases equal with
        | true =>
            simp only [hc, hp, ↓reduceIte, Option.some.injEq, Prod.mk.injEq] at h
            obtain ⟨rfl, rfl⟩ := h
            exact .unchanged hc
        | false =>
            by_cases hd : w.flight.phase = .completed
            · simp only [hp, hd, reduceCtorEq, ↓reduceIte, Option.some.injEq, Prod.mk.injEq] at h
              obtain ⟨rfl, rfl⟩ := h
              exact .rearmed hd
            · simp only [hc, hp, hd, ↓reduceIte, Option.some.injEq, Prod.mk.injEq] at h
              obtain ⟨rfl, rfl⟩ := h
              refine .superseded ?_
              cases hph : w.flight.phase <;> simp_all

theorem start_effect (h : w.step (.start runner) = some (w', answer)) : Effect w ⟨.start runner, answer⟩ w' := by
  simp only [step, Flight.start] at h
  split at h
  · cases h
  · by_cases hc : w.flight.phase = .closed
    · simp only [hc, ↓reduceIte, Option.some.injEq, Prod.mk.injEq] at h
      obtain ⟨rfl, rfl⟩ := h
      exact .refused hc
    · by_cases hl : Flight.attemptLimit ≤ w.flight.attempts + 1
      · simp only [hc, hl, ↓reduceIte, Option.some.injEq, Prod.mk.injEq] at h
        obtain ⟨rfl, rfl⟩ := h
        exact .exhausted hc hl
      · cases hp : w.flight.input.copy with
        | error message =>
            simp only [hc, hl, hp, ↓reduceIte, Option.some.injEq, Prod.mk.injEq] at h
            obtain ⟨rfl, rfl⟩ := h
            exact .uncopied hc hp
        | ok input =>
            simp only [hc, hl, hp, ↓reduceIte, Option.some.injEq, Prod.mk.injEq] at h
            obtain ⟨rfl, rfl⟩ := h
            exact .invoked hc hp

theorem settle_effect {outcome : Outcome} (h : w.step (.settle runner outcome) = some (w', answer)) :
    Effect w ⟨.settle runner outcome, answer⟩ w' := by
  obtain ⟨token, ht, h⟩ := Option.map_eq_some_iff.mp h
  simp only [Prod.mk.injEq] at h
  obtain ⟨rfl, rfl⟩ := h
  simp only [Flight.settle]
  by_cases hc : w.flight.phase = .closed
  · simp only [hc, ↓reduceIte]
    exact .dropped ht hc
  · by_cases hs : (!w.flight.signal.interrupted && token.isSuperseded w.flight.signal) = true
    · simp only [hc, hs, ↓reduceIte]
      simp only [Token.isSuperseded, Bool.and_eq_true, Bool.not_eq_true', decide_eq_true_eq] at hs
      exact .again ht hc hs.1 hs.2
    · simp only [hc, hs, ↓reduceIte]
      refine .stored ht hc ?_
      cases hi : w.flight.signal.interrupted with
      | true => exact .inl rfl
      | false => exact .inr (by simpa [Token.isSuperseded, hi] using hs)

theorem step_effect (h : w.step act = some (w', answer)) : Effect w ⟨act, answer⟩ w' := by
  cases act with
  | offer input => exact offer_effect h
  | start runner => exact start_effect h
  | settle runner outcome => exact settle_effect h
  | fail message =>
      cases h
      simp only [Flight.fail]
      cases hp : w.flight.phase <;> first
        | exact .failed (by simp [hp])
        | exact .unfailed (by simp [hp])
  | bind worker => cases h; exact .bound
  | unbind worker =>
      cases h
      simp only [Flight.unbind]
      split
      · exact .unbound
      · exact @Effect.unbound _ w worker w.flight.worker
  | take =>
      cases h
      simp only [Flight.take]
      split
      · exact .taken ‹_› rfl
      · exact .missed ‹_›
  | interrupt => cases h; exact .interrupted
  | close => cases h; exact .closed

/-- What holds at first and is kept by every effect holds after every history. -/
theorem Run.invariant {start : FlightState} {P : List FlightMoment → FlightState → Prop} (hstart : P [] start)
    (hstep : ∀ {history w m w'}, P history w → Effect w m w' → P (m :: history) w') (h : Run start history w) :
    P history w := by
  induction h with
  | start => exact hstart
  | step _ hs ih => exact hstep ih (step_effect hs)

theorem Run.trans {start v : FlightState} {later : List FlightMoment} (h : Run start history v) (k : Run v later w) :
    Run start (later ++ history) w := by
  induction k with
  | start => exact h
  | step _ hs ih => exact ih.step hs

theorem Run.split {start : FlightState} {later earlier : List FlightMoment} (h : Run start (later ++ earlier) w) :
    ∃ v, Run start earlier v ∧ Run v later w := by
  induction later generalizing w with
  | nil => exact ⟨w, h, .start⟩
  | cons m later ih =>
      cases h with
      | step hrun hs =>
          obtain ⟨v, hearlier, hlater⟩ := ih hrun
          exact ⟨v, hearlier, hlater.step hs⟩

/-! ## Tokens and generations -/

/-- The number of inputs that were accepted. -/
def acceptedCount (history : List FlightMoment) : Nat := history.countP FlightMoment.accepts

theorem acceptedCount_cons (m : FlightMoment) (history : List FlightMoment) :
    acceptedCount (m :: history) = acceptedCount history + acceptedCount [m] := by
  simp [acceptedCount, List.countP_cons]

theorem acceptedCount_eq_zero : acceptedCount history = 0 ↔ history.any FlightMoment.accepts = false := by
  rw [acceptedCount, List.countP_eq_zero, List.any_eq_false]

theorem Effect.generation (he : Effect w m w') :
    w'.flight.signal.generation = w.flight.signal.generation + UInt64.ofNat (acceptedCount [m]) := by
  cases he with
  | superseded | rearmed => rfl
  | _ => exact (UInt64.add_zero _).symm

theorem Run.generation {start : FlightState} (h : Run start history w) :
    w.flight.signal.generation = start.flight.signal.generation + UInt64.ofNat (acceptedCount history) := by
  refine h.invariant (P := fun history w =>
    w.flight.signal.generation = start.flight.signal.generation + UInt64.ofNat (acceptedCount history))
    (UInt64.add_zero _).symm ?_
  intro history w m w' ih he
  rw [he.generation, ih, acceptedCount_cons m history, UInt64.ofNat_add, UInt64.add_assoc]

/-- A flight stays interrupted once it was. -/
theorem Run.interrupted {start : FlightState} (h : Run start history w) :
    w.flight.signal.interrupted = (start.flight.signal.interrupted || history.any FlightMoment.disturbs) := by
  refine h.invariant (P := fun history w =>
    w.flight.signal.interrupted = (start.flight.signal.interrupted || history.any FlightMoment.disturbs))
    (Bool.or_false _).symm ?_
  intro history w m w' ih he
  rw [List.any_cons, Bool.or_left_comm, ← ih]
  cases he with
  | interrupted | closed => rfl
  | _ => exact (Bool.false_or _).symm

/-- The generation of the flight counts the inputs that were accepted since any invocation that is under way was
started. -/
def Dated (history : List FlightMoment) (w : FlightState) : Prop :=
  ∀ runner token, w.tokens runner = some token → ∃ since input before,
    history = since ++ ⟨.start runner, .started (.invoke input token)⟩ :: before ∧
      (∀ m ∈ since, m.settles runner = false) ∧
      w.flight.signal.generation = token.started + UInt64.ofNat (acceptedCount since)

/-- Less than `2 ^ 64` newer inputs came in the course of any invocation. -/
def FewOffers (history : List FlightMoment) : Prop :=
  ∀ later since runner input token before,
    history = later ++ (since ++ ⟨.start runner, .started (.invoke input token)⟩ :: before) →
      (∀ m ∈ since, m.settles runner = false) → acceptedCount since < UInt64.size

theorem FewOffers.earlier (h : FewOffers (m :: history)) : FewOffers history := by
  rintro later since runner input token before rfl
  exact h (m :: later) since runner input token before rfl

theorem FewOffers.of_length (h : history.length < UInt64.size) : FewOffers history := by
  rintro later since runner input token before rfl -
  have : acceptedCount since ≤ since.length := List.countP_le_length
  simp only [List.length_append] at h
  omega

theorem assign_some {other : Nat} {given : Option Token} (h : w.assign runner given other = some token) :
    other = runner ∧ given = some token ∨ other ≠ runner ∧ w.tokens other = some token := by
  unfold assign at h
  split at h
  · exact .inl ⟨‹_›, h⟩
  · exact .inr ⟨‹_›, h⟩

theorem Dated.later (h : Dated history w) (htokens : ∀ runner token, w'.tokens runner = some token →
      w.tokens runner = some token ∧ m.settles runner = false)
    (hgen : w'.flight.signal.generation = w.flight.signal.generation + UInt64.ofNat (acceptedCount [m])) :
    Dated (m :: history) w' := by
  intro runner token ht
  obtain ⟨ht, hm⟩ := htokens runner token ht
  obtain ⟨since, input, before, rfl, hopen, hcount⟩ := h runner token ht
  refine ⟨m :: since, input, before, rfl, fun x hx => ?_, ?_⟩
  · rcases List.mem_cons.mp hx with rfl | hx
    · exact hm
    · exact hopen x hx
  · rw [hgen, hcount, acceptedCount_cons m since, UInt64.ofNat_add, UInt64.add_assoc]

theorem Dated.step (h : Dated history w) (he : Effect w m w') : Dated (m :: history) w' := by
  have hassigned {runner : Nat} {outcome : Outcome} {answer : FlightAnswer} (other : Nat) (token : Token)
      (ht : w.assign runner none other = some token) :
      w.tokens other = some token ∧ FlightMoment.settles other ⟨.settle runner outcome, answer⟩ = false := by
    rcases assign_some ht with ⟨-, hnone⟩ | ⟨hne, ht⟩
    · cases hnone
    · exact ⟨ht, by simpa [FlightMoment.settles] using Ne.symm hne⟩
  cases he with
  | @invoked runner input hc hcopy =>
      intro other token ht
      rcases assign_some ht with ⟨rfl, hsome⟩ | ⟨hne, ht⟩
      · cases hsome
        exact ⟨[], input, history, rfl, by simp, (UInt64.add_zero _).symm⟩
      · have hlater : Dated (_ :: history) { w with flight := { w.flight with phase := .running, attempts := w.flight.attempts + 1 } } :=
          h.later (m := ⟨.start runner, .started (.invoke input ⟨w.flight.signal.generation⟩)⟩)
            (fun _ _ ht => ⟨ht, rfl⟩) (UInt64.add_zero _).symm
        exact hlater other token ht
  | superseded | rearmed => exact h.later (fun _ _ ht => ⟨ht, rfl⟩) rfl
  | dropped | again | stored => exact h.later hassigned (UInt64.add_zero _).symm
  | _ => exact h.later (fun _ _ ht => ⟨ht, rfl⟩) (UInt64.add_zero _).symm

theorem Run.dated {r : Registration} {input : Payload} (h : Run (.of r input) history w) : Dated history w :=
  h.invariant (P := Dated) (fun _ _ ht => by cases ht) Dated.step

theorem Run.calm {r : Registration} {input : Payload} (h : Run (.of r input) history w)
    (hcalm : ∀ m ∈ history, m.disturbs = false) : w.flight.signal.interrupted = false := by
  have hnone : history.any FlightMoment.disturbs = false := List.any_eq_false.mpr fun m hm => by simp [hcalm m hm]
  rw [h.interrupted, hnone]
  rfl

end FlightState

end SingleFlight
