import SingleFlight.Proofs.Flight.Operations
import SingleFlight.Rehearsal.Values

/-!
# Late inputs and failures

An input that a flight accepted is the one of the next invocation, whatever is offered, settled or taken before it.
Only a failure of whoever runs the flight passes it over: it completes the flight with its own message, and that is
what is taken then.
-/

namespace SingleFlight.FlightState

section

variable [Payloads]

/-- The message of the first failure since the newest start. -/
def recorded : List FlightMoment → Option String
  | [] => none
  | m :: earlier =>
    match m.act with
    | .fail message => (recorded earlier).or (some message)
    | .start _ => none
    | _ => recorded earlier

/-- The newest input of the flight was not copied for an invocation since it was accepted, and this is the failure
that was recorded meanwhile. -/
structure Pending (w : FlightState) (failure : Option String) : Prop where
  calm : w.flight.signal.interrupted = false
  stale : ∀ runner token, w.tokens runner = some token → w.flight.signal.generation ≠ token.started
  unfailed : failure = none → w.flight.phase = .queued ∨ w.flight.phase = .running
  failed : ∀ message, failure = some message →
    w.flight.phase = .completed ∧ w.flight.output = some (.error (.panicked message))

variable {w w' : FlightState} {history between before : List FlightMoment} {m offered : FlightMoment} {r : Registration}
  {input : Payload} {failure : Option String}

theorem Pending.not_closed (h : w.Pending failure) : w.flight.phase ≠ .closed := by
  intro hc
  cases failure with
  | none => rcases h.unfailed rfl with hp | hp <;> cases hp.symm.trans hc
  | some message => cases (h.failed message rfl).1.symm.trans hc

/-- All invocations under way were started with older inputs. -/
theorem Pending.of_accepted (hdated : Dated (offered :: history) w') (hfew : FewOffers (offered :: history))
    (hcalm : w.flight.signal.interrupted = false) (he : Effect w offered w') (ha : offered.accepts = true) :
    w'.Pending none := by
  have hstale : ∀ runner token, w'.tokens runner = some token → w'.flight.signal.generation ≠ token.started := by
    intro runner token ht hgen
    obtain ⟨since, copied, before, hsplit, hopen, hcount⟩ := hdated runner token ht
    have hlt : acceptedCount since < UInt64.size := hfew [] since runner copied token before hsplit hopen
    have hpos : 0 < acceptedCount since := by
      cases since with
      | nil => obtain ⟨rfl, -⟩ := List.cons.inj hsplit; cases ha
      | cons x since =>
          obtain ⟨rfl, -⟩ := List.cons.inj hsplit
          simp [acceptedCount, ha]
    have hzero : acceptedCount since = 0 := (Signal.counted_eq_iff hlt).mp (hcount.symm.trans hgen)
    omega
  cases he with
  | superseded hp => exact ⟨hcalm, hstale, fun _ => hp, by simp⟩
  | rearmed hp => exact ⟨hcalm, hstale, fun _ => .inl rfl, by simp⟩
  | _ => cases ha

theorem Pending.unsettled {tokens : Nat → Option Token} (h : w.Pending failure)
    (ht : ∀ runner token, tokens runner = some token → w.tokens runner = some token) :
    ({ w with tokens } : FlightState).Pending failure :=
  ⟨h.calm, fun runner token hr => h.stale runner token (ht runner token hr), h.unfailed, h.failed⟩

/-- What the flight has recorded is passed on by every operation that neither accepts an input nor copies one. -/
theorem Pending.step (h : w.Pending (recorded between)) (he : Effect w m w') (hd : m.disturbs = false)
    (hacc : m.accepts = false) (hatt : m.attempts = false) (hy : m.yields = false) :
    w'.Pending (recorded (m :: between)) := by
  have hsettled (runner other : Nat) (token : Token) (ht : w.assign runner none other = some token) :
      w.tokens other = some token := by
    rcases assign_some ht with ⟨-, hnone⟩ | ⟨-, ht⟩
    · cases hnone
    · exact ht
  cases he with
  | rejected | incomparable | unchanged | missed => exact h
  | bound | unbound => exact ⟨h.calm, h.stale, h.unfailed, h.failed⟩
  | superseded | rearmed => cases hacc
  | invoked => cases hatt
  | refused hc => exact absurd hc h.not_closed
  | exhausted | uncopied => exact ⟨h.calm, h.stale, fun _ => .inr rfl, by simp [recorded]⟩
  | dropped | again => exact h.unsettled (hsettled _)
  | stored ht _ hgen =>
      rcases hgen with hi | hgen
      · cases h.calm.symm.trans hi
      · exact absurd hgen (h.stale _ _ ht)
  | @failed message hp =>
      have hnone : recorded between = none := by
        cases hf : recorded between with
        | none => rfl
        | some earlier =>
            have := (h.failed earlier hf).1
            rcases hp with hp | hp <;> cases hp.symm.trans this
      have hrec : recorded (⟨.fail message, .done⟩ :: between) = some message := by simp [recorded, hnone]
      rw [hrec]
      exact ⟨h.calm, h.stale, by simp, fun _ he => by cases he; exact ⟨rfl, rfl⟩⟩
  | @unfailed message hp =>
      obtain ⟨earlier, hf⟩ : ∃ earlier, recorded between = some earlier := by
        cases hf : recorded between with
        | none =>
            rcases h.unfailed hf with hu | hu <;> rcases hp with hp | hp <;> cases hu.symm.trans hp
        | some earlier => exact ⟨earlier, rfl⟩
      have hrec : recorded (⟨.fail message, .done⟩ :: between) = recorded between := by simp [recorded, hf]
      rw [hrec]
      exact h
  | taken hp ho =>
      cases hf : recorded between with
      | none => rcases h.unfailed hf with hu | hu <;> cases hu.symm.trans hp
      | some message =>
          rw [(h.failed message hf).2] at ho
          subst ho
          cases hy
  | interrupted | closed => cases hd

/-- An outcome can be taken if a failure was recorded. -/
theorem Pending.take (h : w.Pending failure) :
    w.flight.take.2 = failure.map fun message => .error (.panicked message) := by
  cases failure with
  | none =>
      have hne : w.flight.phase ≠ .completed := by
        rcases h.unfailed rfl with hp | hp <;> simp [hp]
      simp [Flight.take, hne]
  | some message =>
      obtain ⟨hp, ho⟩ := h.failed message rfl
      simp [Flight.take, hp, ho]

theorem Run.pending (hcalm : ∀ m ∈ between ++ offered :: before, m.disturbs = false)
    (hfew : FewOffers (between ++ offered :: before)) (hacc : offered.accepts = true)
    (hno : ∀ m ∈ between, m.accepts = false ∧ m.attempts = false ∧ m.yields = false) :
    ∀ {w : FlightState}, Run (.of r input) (between ++ offered :: before) w → w.Pending (recorded between) := by
  induction between with
  | nil =>
      intro w h
      cases h with
      | step hrun hs =>
          have he := step_effect hs
          have hbefore := hrun.calm fun x hx => hcalm x (List.mem_cons_of_mem _ hx)
          exact .of_accepted (hrun.dated.step he) hfew hbefore he hacc
  | cons m between ih =>
      intro w h
      cases h with
      | step hrun hs =>
          obtain ⟨hm, hatt, hy⟩ := hno _ List.mem_cons_self
          have hpending := ih (fun x hx => hcalm x (List.mem_cons_of_mem _ hx)) hfew.earlier
            (fun x hx => hno x (List.mem_cons_of_mem _ hx)) hrun
          exact hpending.step (step_effect hs) (hcalm _ List.mem_cons_self) hm hatt hy

/-! ## Failures -/

/-- A flight accepted an input, and since then it was not interrupted or closed, took no newer input and was not
copied for an invocation, and its outcome was not taken. If less than `2 ^ 64` inputs came in the course of any
invocation, an outcome can be taken exactly if a failure was recorded since, and it is this failure. -/
theorem passed_over_iff_failed {history : List FlightMoment} (h : Run (.of r input) history w)
    (hcalm : ∀ m ∈ history, m.disturbs = false) (hfew : FewOffers history)
    (hsplit : history = between ++ offered :: before) (hacc : offered.accepts = true)
    (hno : ∀ m ∈ between, m.accepts = false ∧ m.attempts = false ∧ m.yields = false) :
    w.flight.take.2 = (recorded between).map (fun message => .error (.panicked message)) ∧
      ((∀ m ∈ between, ∀ message, m.act ≠ .fail message) → w.flight.take.2 = none) := by
  subst hsplit
  have htake := (Run.pending hcalm hfew hacc hno h).take
  refine ⟨htake, fun hnone => ?_⟩
  have hrec : recorded between = none := by
    clear h hcalm hfew hno htake
    induction between with
    | nil => rfl
    | cons m between ih =>
        have hm := hnone m List.mem_cons_self
        have ih := ih fun x hx => hnone x (List.mem_cons_of_mem _ hx)
        unfold recorded
        split
        · rename_i message hact
          exact absurd hact (hm message)
        · rfl
        · exact ih
  rw [htake, hrec]
  rfl

end

/-- An action whose inputs may be impossible to copy. -/
def delicate : Registration := { id := ⟨0⟩, kind := .get, input := .fragile }

/-- A worker that cannot copy the first input, and records the failure when a newer input has come. -/
def lateOffer : List FlightAct := [.start 1, .offer (.fragile "b"), .fail "clone failed: !a"]

theorem lateOffer_replay : ∃ before failed w,
    replay lateOffer [] (.of delicate (.fragile "!a"))
      = some ([failed, ⟨.offer (.fragile "b"), .offered .superseded⟩, before], w) ∧
    (∀ m ∈ [failed, ⟨.offer (.fragile "b"), .offered .superseded⟩, before], m.disturbs = false) ∧
    failed.accepts = false ∧ failed.attempts = false ∧ failed.yields = false ∧
    recorded [failed] = some "clone failed: !a" ∧ w.flight.input = .fragile "b" :=
  ⟨_, _, _, rfl, by simp [FlightMoment.disturbs], rfl, rfl, rfl, rfl, rfl⟩

/-- The failure can be taken, although nobody has copied the newer input. -/
theorem failure_passes_over : ∃ history w between before, Run (.of delicate (.fragile "!a")) history w ∧
    (∀ m ∈ history, m.disturbs = false) ∧ FewOffers history ∧
    history = between ++ ⟨.offer (.fragile "b"), .offered .superseded⟩ :: before ∧
    (∀ m ∈ between, m.accepts = false ∧ m.attempts = false ∧ m.yields = false) ∧
    w.flight.take.2 = some (.error (.panicked "clone failed: !a")) := by
  obtain ⟨before, failed, w, hr, hcalm, hacc, hatt, hy, hrec, -⟩ := lateOffer_replay
  have hrun := replay_run .start hr
  have hfew : FewOffers [failed, ⟨.offer (.fragile "b"), .offered .superseded⟩, before] :=
    .of_length (by simp [UInt64.size])
  have hno : ∀ m ∈ [failed], m.accepts = false ∧ m.attempts = false ∧ m.yields = false := by
    simp [hacc, hatt, hy]
  refine ⟨_, w, [failed], [before], hrun, hcalm, hfew, rfl, hno, ?_⟩
  rw [(passed_over_iff_failed hrun hcalm hfew rfl rfl hno).1, hrec]
  rfl

/-- An input that a flight accepted can be passed over: the outcome is taken, and nobody has copied the input since. -/
theorem accepted_input_lost : ∃ history w between before outcome, Run (.of delicate (.fragile "!a")) history w ∧
    (∀ m ∈ history, m.disturbs = false) ∧
    history = ⟨.take, .taken (some outcome)⟩ :: between ++ ⟨.offer (.fragile "b"), .offered .superseded⟩ :: before ∧
    (∀ m ∈ between, m.attempts = false) ∧ w.flight.input = .fragile "b" := by
  obtain ⟨history, w, hr, between, before, outcome, hsplit, hcalm, hatt, hinput⟩ : ∃ history w,
      replay (lateOffer ++ [.take]) [] (.of delicate (.fragile "!a")) = some (history, w) ∧
      ∃ between before outcome,
        history = ⟨.take, .taken (some outcome)⟩ :: between ++ ⟨.offer (.fragile "b"), .offered .superseded⟩ :: before ∧
        (∀ m ∈ history, m.disturbs = false) ∧ (∀ m ∈ between, m.attempts = false) ∧ w.flight.input = .fragile "b" :=
    ⟨_, _, rfl, [_], [_], _, rfl, by simp [FlightMoment.disturbs], by simp [FlightMoment.attempts], rfl⟩
  exact ⟨history, w, between, before, outcome, replay_run .start hr, hcalm, hsplit, hatt, hinput⟩

end SingleFlight.FlightState
