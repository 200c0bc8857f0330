import SingleFlight.Proofs.System

/-!
# One invocation at a time

With a pool no action has more than one invocation under way, open or closed: a flight is in one pair of hands
at most, and a worker enters a flight that nobody has run since it was queued.
-/

namespace SingleFlight

open Scheduler

section

variable [Payloads]

namespace System

/-- The worker is inside of the function of the action. -/
def IsInvoking (sys : System) (w : Nat) (id : ActionId) : Prop :=
  ∃ p n f input token, sys.scheduler.pool = some p ∧
    p.phase? w = some (.working n (.running (.invoking input token))) ∧
    sys.scheduler.flights[n]? = some f ∧ f.action = id

/-- The worker has entered its run of the flight and has not taken a step of it. -/
def HasEntered (w n : Nat) : List Moment → Prop
  | [] => False
  | moment :: history =>
    .pool (.ran w n) ∈ moment.events ∨
      (∀ refusal, moment.act ≠ .thread (.advance (.worker w) refusal)) ∧ HasEntered w n history

end System

namespace Scheduler

variable {s s' : Scheduler} {p : Pool Nat WorkStage} {act : SchedulerAct} {w v n m : Nat} {f g : Flight}
  {events : List SchedulerEvent}

/-- The worker is about to start an invocation of a flight that nobody has run since it was queued. -/
structure Entering (s : Scheduler) (w n : Nat) : Prop where
  starting : ∃ p, s.pool = some p ∧ p.phase? w = some (.working n (.running .starting))
  idle : s.callsOf (.worker w) = []
  unstarted : (s.standing n).phase = some .queued ∨ (s.standing n).phase = some .closed

/-! ## Entering -/

/-- A worker enters a flight that is queued, or closed. -/
theorem Move.entering (hm : Move s act s' events) (h : s.Sane) (hran : .pool (.ran w n) ∈ events) :
    s'.Entering w n := by
  have hnews := hm.news hran rfl
  obtain ⟨refusal, p, rfl, hcs, hp, hw⟩ : ∃ refusal p, act = .advance (.worker w) refusal ∧
      s.callsOf (.worker w) = [] ∧ s.pool = some p ∧ p.phase? w = some (.ready n) := by
    cases hnews with
    | ran hcs hp hw => exact ⟨_, _, rfl, hcs, hp, hw⟩
  obtain ⟨f, hf, rfl⟩ := hm.enters hcs hp hw
  have hwait := waiting_pos (n := n) hp hw rfl
  have hs := h.sound n
  have hphase : (s.standing n).phase = some f.phase := by simp [standing, hf]
  refine ⟨⟨_, rfl, Pool.phase?_setPhase_self hw⟩, hcs, ?_⟩
  simp only [standing, flights_setFlight hf, ↓reduceIte, Option.map_some, Flight.bind]
  simp only [Standing.Sound, hphase] at hs
  cases hp : f.phase with
  | queued => exact .inl rfl
  | closed => exact .inr rfl
  | running | completed => simp only [hp] at hs; omega

/-- Nobody else runs a flight that a worker has entered. -/
theorem Move.keeps_entering (hm : Move s act s' events) (h : s.Sane) (he : s.Entering w n)
    (hact : ∀ refusal, act ≠ .advance (.worker w) refusal) : s'.Entering w n := by
  obtain ⟨p, hp, hw⟩ := he.starting
  have hstays (hpool : ∃ q, s'.pool = some q ∧ q.phase? w = some (.working n (.running .starting))) :
      s'.Entering w n := by
    obtain ⟨q, hq, hw'⟩ := hpool
    have hfree := isFree_worker hp hw he.idle (by simp)
    have hst := starting_pos (n := n) hp hw (by simp)
    have hst' := starting_pos (n := n) hq hw' (by simp)
    exact ⟨⟨q, hq, hw'⟩, hm.callsOf_idle he.idle hfree,
      (hm.shift h.regular h.pooled n).unstarted (h.sound n) hst hst' he.unstarted⟩
  rcases hm.labour_or_undisturbed h hp with ⟨v, m, f, g, a, b, -, hv, -, hl, hs'⟩ | ⟨q, hq, hund, -⟩
  · by_cases e : w = v
    · subst e
      cases hw.symm.trans hv
      cases hl with
      | ran => exact absurd rfl (hact _)
    · exact hstays ⟨_, by rw [hs'], (Pool.phase?_setPhase_ne e).trans hw⟩
  · exact hstays ⟨q, hq, (hund.phase rfl).mpr hw⟩

/-- The step of a worker that has entered a closed flight: it returns without calling the function. -/
theorem Entering.declines (he : s.Entering w n) (hf : s.flights[n]? = some f) (hc : f.phase = .closed)
    (refusal : Option IoError) :
    ∃ p s', s.step (.advance (.worker w) refusal) = some (s', []) ∧ s'.pool = some p ∧
      p.phase? w = some (.worked n none .unbinding) := by
  obtain ⟨p, hp, hw⟩ := he.starting
  refine ⟨p.setPhase w (.worked n none .unbinding), { s with pool := some (p.setPhase w (.worked n none .unbinding)) }, ?_,
    rfl, Pool.phase?_setPhase_self hw⟩
  have hq : p.work w (.finish .unbinding none) = some (p.setPhase w (.worked n none .unbinding), []) := by
    simp [Pool.work, hw, Pool.panicEvents]
  simp only [step, advance, he.idle, advanceWorker, hp, Option.bind_some, hw, runOnWorker, runStep, hf, Flight.start,
    hc, ↓reduceIte, setFlight_self hf]
  exact workerStep_eq hp hq (by simp)

/-! ## Invocations -/

theorem Sane.invoking_unique {x y : Payload} {k l : Token} (h : s.Sane) (hp : s.pool = some p)
    (hw : p.phase? w = some (.working n (.running (.invoking x k)))) (hf : s.flights[n]? = some f)
    (hv : p.phase? v = some (.working m (.running (.invoking y l)))) (hg : s.flights[m]? = some g)
    (hact : f.action = g.action) : w = v := by
  have hn : 0 < (s.standing n).inside := inside_pos hp hw (by simp)
  have hm : 0 < (s.standing m).inside := inside_pos hp hv (by simp)
  obtain rfl : n = m := h.exclusive n m f g hf hg hact (.inr (by omega)) (.inr (by omega))
  by_cases hne : w = v
  · exact hne
  · have htwo := Pool.two_le_tally (P := WorkerPhase.isInside n) hw hv hne (by simp) (by simp)
    have hone := (h.sound n).le_one
    simp only [standing, hp, Option.elim_some] at hone
    omega

end Scheduler

namespace System

variable {sys : System} {history : List Moment} {w n : Nat}

theorem Reachable.entering (h : Reachable history sys) (hpool : sys.scheduler.isSynchronous = false)
    (he : HasEntered w n history) : sys.scheduler.Entering w n := by
  refine h.sane_invariant (P := fun history sys => HasEntered w n history → sys.scheduler.Entering w n)
    (fun _ _ he => he.elim) ?_ hpool he
  intro history sys act sys' events _ hsane ih hs he
  rcases step_cases hs with ⟨rfl, rfl, rfl⟩ | ⟨a, loop, rfl, -, hm, -⟩
  · rcases he with he | ⟨-, he⟩
    · cases he
    · exact ih he
  · rcases he with hran | ⟨hact, he⟩
    · exact hm.entering hsane hran
    · exact hm.keeps_entering hsane (ih he) fun refusal e => hact refusal (congrArg _ e)

/-- With a pool, at any time, open or closed: the flights in the air are one for each action and of this very
action; no action has two workers inside of its function; a flight is queued, taken or run once at most; and a
worker finds a flight that it has entered queued, or closed, and then leaves it without calling the function. -/
theorem one_invocation_at_a_time (h : Reachable history sys) (hpool : sys.scheduler.isSynchronous = false) :
    (sys.scheduler.inFlight.map Prod.fst).Nodup ∧
    (∀ id n, (id, n) ∈ sys.scheduler.inFlight → ∃ f r, sys.scheduler.flights[n]? = some f ∧
      sys.scheduler.registration? id = some r ∧ r.id = id ∧ f.action = id ∧ f.kind = r.kind) ∧
    (∀ w v id, sys.IsInvoking w id → sys.IsInvoking v id → w = v) ∧
    (∀ p n, sys.scheduler.pool = some p →
      p.pending n + p.tally (WorkerPhase.isStarting n) + p.tally (WorkerPhase.isInside n) ≤ 1) ∧
    (∀ w n, HasEntered w n history → ∃ f, sys.scheduler.flights[n]? = some f ∧
      (f.phase = .queued ∨ f.phase = .closed ∧ ∀ refusal, ∃ p sys',
        sys.step (.thread (.advance (.worker w) refusal)) = some (sys', []) ∧ sys'.scheduler.pool = some p ∧
          p.phase? w = some (.worked n none .unbinding))) := by
  have hs := h.sane hpool
  refine ⟨hs.charted.distinct, fun id n hn => ?_, ?_, fun p n hp => ?_, fun w n he => ?_⟩
  · obtain ⟨f, r, hf, ha, -, hr, hid, hk⟩ := hs.charted.charted id n hn
    exact ⟨f, r, hf, hr, hid, ha, hk⟩
  · rintro w v id ⟨p, n, f, x, k, hp, hw, hf, ha⟩ ⟨q, m, g, y, l, hq, hv, hg, hb⟩
    cases hp.symm.trans hq
    exact hs.invoking_unique hp hw hf hv hg (ha.trans hb.symm)
  · have hone := (hs.sound n).le_one
    simp only [standing, hp, Option.elim_some] at hone
    omega
  · have hent := h.entering hpool he
    have hun := hent.unstarted
    cases hf : sys.scheduler.flights[n]? with
    | none => simp [standing, hf] at hun
    | some f =>
        refine ⟨f, rfl, ?_⟩
        simp only [standing, hf, Option.map_some, Option.some.injEq] at hun
        rcases hun with hq | hc
        · exact .inl hq
        · refine .inr ⟨hc, fun refusal => ?_⟩
          obtain ⟨p, s', hstep, hp, hw⟩ := hent.declines hf hc refusal
          exact ⟨p, _, by simp only [step, OwnerLoop.yield, Option.bind_some, hstep]; rfl, hp, hw⟩

end System

end

namespace System

/-- The worker that was started for the first request enters its flight. -/
theorem first_worker_finds_queued : ∃ history sys f, Reachable history sys ∧
    sys.scheduler.isSynchronous = false ∧ HasEntered 1 0 history ∧
      sys.scheduler.flights[0]? = some f ∧ f.phase ≠ .running ∧ f.phase ≠ .completed := by
  let entry : List SystemAct :=
    [ .thread (.apply .owner ⟨0⟩ (.string "a")), .thread (.advance .owner none), .thread (.advance .owner none),
      .thread (.advance (.worker 1) none), .thread (.advance (.worker 1) none), .thread (.advance (.worker 1) none) ]
  obtain ⟨history, sys, hr, hpool, hentered⟩ : ∃ history sys, replay entry [] (small true) = some (history, sys) ∧
      sys.scheduler.isSynchronous = false ∧ HasEntered 1 0 history :=
    ⟨_, _, rfl, rfl, .inl (.tail _ (.tail _ (.head _)))⟩
  have hreach := replay_reachable (small_reachable true) hr
  obtain ⟨f, hf, hphase⟩ := (one_invocation_at_a_time hreach hpool).2.2.2.2 1 0 hentered
  refine ⟨history, sys, f, hreach, hpool, hentered, hf, ?_⟩
  rcases hphase with hq | ⟨hc, -⟩
  · rw [hq]; decide
  · rw [hc]; decide

end System

end SingleFlight
