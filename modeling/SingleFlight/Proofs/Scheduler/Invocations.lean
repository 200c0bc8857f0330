import SingleFlight.Proofs.Scheduler.Calls
import SingleFlight.Proofs.Scheduler.Course

/-!
# Inside of invocations

How a worker comes to where it is inside of an invocation of a flight, and how the owner comes to an outcome that
it is about to give away.
-/

namespace SingleFlight

variable [Payloads]

/-- The event ends an invocation of the flight. -/
def SchedulerEvent.endsRun (n : Nat) : SchedulerEvent → Bool
  | .retried m _ _ _ => m = n
  | .completed m _ _ _ => m = n
  | _ => false

theorem WorkerPhase.isEngaged_of_isInside {n : Nat} {a : WorkerPhase Nat WorkStage} (h : a.isInside n = true) :
    a.isEngaged = true := by
  cases he : a.isEngaged with
  | true => rfl
  | false => rw [WorkerPhase.isInside_idle a he] at h; cases h

namespace Scheduler

variable {s s' : Scheduler} {p q : Pool Nat WorkStage} {act : SchedulerAct} {c : Caller} {v w n m : Nat} {f g : Flight}
  {a b : WorkerPhase Nat WorkStage} {events : List SchedulerEvent}

/-- `Arrives s w n act events a`: how the step `act` brings the worker `w` to its phase `a` inside of an invocation
of the flight `n`. -/
inductive Arrives (s : Scheduler) (w n : Nat) :
    SchedulerAct → List SchedulerEvent → WorkerPhase Nat WorkStage → Prop
  /-- It was there before. -/
  | stayed {act events pool phase} : s.pool = some pool → pool.phase? w = some phase →
      (∀ answer, act ≠ .reply (.worker w) answer) → (∀ e ∈ events, e.endsRun n = false) →
      Arrives s w n act events phase
  | called {refusal x r input given} : s.flights[n]? = some x → x.input.copy = .ok input →
      s.registration? x.action = some r → r.callInput input = .ok given →
      Arrives s w n (.advance (.worker w) refusal) [.called (.worker w) n x.action given ⟨x.signal.generation⟩]
        (.working n (.running (.invoking given ⟨x.signal.generation⟩)))
  | mistyped {act events x r input failure token} : s.flights[n]? = some x → x.input.copy = .ok input →
      s.registration? x.action = some r → r.callInput input = .error failure →
      Arrives s w n act events (.working n (.running (.settling token (.error failure))))
  | answered {pool x r input token answer} : s.pool = some pool →
      pool.phase? w = some (.working n (.running (.invoking input token))) → s.flights[n]? = some x →
      s.registration? x.action = some r →
      Arrives s w n (.reply (.worker w) answer) []
        (.working n (.running (.settling token (Flight.caught (r.outcome answer)))))
  | exhausted {act events x panic} : s.flights[n]? = some x → Flight.attemptLimit ≤ x.attempts + 1 →
      Arrives s w n act events (.worked n panic (.failing Flight.attemptOverflow))
  | uncopied {act events x panic message} : s.flights[n]? = some x → x.input.copy = .error message →
      Arrives s w n act events (.worked n panic (.failing message))

/-! ## Workers -/

theorem Labour.arrives (h : Labour s w (p.workerName w) m f act a g b events) (hp : s.pool = some p)
    (hw : p.phase? w = some a) (hf : s.flights[m]? = some f) (hb : b.isInside n = true) :
    Arrives s w n act events b := by
  cases h with
  | @ran refusal stage g next events hr =>
      cases hr with
      | called _ _ hcopy hreg hcall =>
          obtain rfl : m = n := by simpa using hb
          simpa [RunStep.panics] using Arrives.called hf hcopy hreg hcall
      | mistyped _ _ hcopy hreg hcall =>
          obtain rfl : m = n := by simpa using hb
          exact .mistyped hf hcopy hreg hcall
      | exhausted _ hl =>
          obtain rfl : m = n := by simpa using hb
          exact .exhausted hf hl
      | uncopied _ _ hcopy =>
          obtain rfl : m = n := by simpa using hb
          exact .uncopied hf hcopy
      | refused | dropped | retried | stored => simp at hb
  | answered hr =>
      obtain rfl : m = n := by simpa using hb
      exact .answered hp hw hf hr
  | _ => simp at hb

/-- An invocation is ended by its own worker. -/
theorem Move.ends_own {e : SchedulerEvent} (hm : Move s act s' events) (h : s.Sane) (hp : s.pool = some p)
    (hw : p.phase? w = some a) (ha : a.isInside n = true) (he : e ∈ events) (hends : e.endsRun n = true) :
    s.callsOf (.worker w) = [] ∧ ∃ refusal, act = .advance (.worker w) refusal := by
  have hown {token : Token} {outcome : Outcome} {refusal : Option IoError} {c : Caller}
      (hr : RunsAt s n (.settling token outcome) c) (hact : act = .advance c refusal) :
      s.callsOf (.worker w) = [] ∧ ∃ refusal, act = .advance (.worker w) refusal := by
    cases hr with
    | inline hcs => cases h.regular.orderly.suited h.pooled hcs
    | @worker v q hcs hq hv =>
        cases hp.symm.trans hq
        by_cases hne : w = v
        · subst hne; exact ⟨hcs, _, hact⟩
        · have htwo := Pool.two_le_tally (P := WorkerPhase.isInside n) hw hv hne ha (by simp)
          have hone := (h.sound n).le_one
          simp only [standing, hp, Option.elim_some] at hone
          omega
  have hnews : e.isNews = true := by
    cases e <;> first | rfl | cases hends
  cases hm.news he hnews with
  | retried hr =>
      simp only [SchedulerEvent.endsRun, decide_eq_true_eq] at hends
      subst hends
      exact hown hr rfl
  | completed hr =>
      simp only [SchedulerEvent.endsRun, decide_eq_true_eq] at hends
      subst hends
      exact hown hr rfl
  | _ => cases hends

theorem Move.replied {answer : Reply} (hm : Move s (.reply c answer) s' events) (h : s.Sane) :
    ∃ w p m input token, c = .worker w ∧ s.callsOf (.worker w) = [] ∧ s.pool = some p ∧
      p.phase? w = some (.working m (.running (.invoking input token))) := by
  cases hm with
  | turned ht =>
      generalize hcs : s.callsOf _ = cs at ht
      cases ht with
      | answered => cases h.regular.orderly.suited h.pooled hcs
  | worked hcs hp hw _ hl =>
      cases hl with
      | answered => exact ⟨_, _, _, _, _, rfl, hcs, hp, hw⟩
  | idled hact => rcases hact with hact | ⟨-, r, hact⟩ <;> cases hact

theorem Move.arrives (hm : Move s act s' events) (h : s.Sane) (hq : s'.pool = some q) (hw : q.phase? w = some a)
    (ha : a.isInside n = true) : Arrives s w n act events a := by
  obtain ⟨p, hp⟩ : ∃ p, s.pool = some p := by
    cases hp : s.pool with
    | none => have := h.pooled; simp [isSynchronous, hp] at this
    | some p => exact ⟨p, rfl⟩
  -- a worker that was there before neither gets a reply nor ends its invocation, unless it moves itself
  have hstayed (hw : p.phase? w = some a) (hact : s.callsOf (.worker w) = [] →
      (∀ refusal, act ≠ .advance (.worker w) refusal) ∧ ∀ answer, act ≠ .reply (.worker w) answer) :
      Arrives s w n act events a := by
    refine .stayed hp hw ?_ fun e he => ?_
    · rintro answer rfl
      obtain ⟨v, -, -, -, -, e, hcs, -⟩ := hm.replied h
      cases e
      exact (hact hcs).2 _ rfl
    · cases hends : e.endsRun n with
      | false => rfl
      | true =>
          obtain ⟨hcs, refusal, e⟩ := hm.ends_own h hp hw ha he hends
          exact absurd e ((hact hcs).1 _)
  rcases hm.labour_or_undisturbed h hp with ⟨v, m, f, g, d, b, hcs, hv, hf, hl, rfl⟩ | ⟨q', hq', hund, hby⟩
  · cases hq
    by_cases e : w = v
    · subst e
      cases (Pool.phase?_setPhase_self hv).symm.trans hw
      exact hl.arrives hp hv hf ha
    · rw [Pool.phase?_setPhase_ne e] at hw
      refine hstayed hw fun _ => ?_
      cases hl <;> refine ⟨?_, ?_⟩ <;> intro _ hact <;> cases hact <;> exact e rfl
  · cases hq.symm.trans hq'
    have heng := WorkerPhase.isEngaged_of_isInside ha
    have hw' := (hund.phase heng).mp hw
    exact hstayed hw' (hby w a hw' heng)

/-! ## The owner -/

theorem Move.takes {o : Outcome} (hm : Move s act s' events) (h : s.Sane)
    (hx : .delivering n o ∈ s'.callsOf .owner) :
    .delivering n o ∈ s.callsOf .owner ∨
      ∃ f, s.flights[n]? = some f ∧ f.phase = .completed ∧ f.output = some o ∧ s.isClosed = false := by
  rcases hm.arises hx with hx | ha
  · exact .inl hx
  · cases ha with
    | collected _ hf hin hd ho =>
        refine .inr ⟨_, hf, hd, ho, ?_⟩
        cases hc : s.isClosed with
        | false => rfl
        | true =>
            have hmem := mem_of_flightOf? hin
            rw [h.charted.emptied hc] at hmem; cases hmem
    | took hcs | ran hcs => cases h.regular.orderly.suited h.pooled hcs

end Scheduler

end SingleFlight
