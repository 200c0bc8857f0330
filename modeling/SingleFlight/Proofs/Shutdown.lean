import SingleFlight.Proofs.Rounds

/-!
# Closing at rest

A scheduler with a pool that is closed while it is at rest only stops its pool: nothing of this is seen, and it comes
to its end, at the latest when the wait for the workers is given up.
-/

namespace SingleFlight

open Scheduler

namespace Pool

variable {τ σ : Type} {p q : Pool τ σ} {w : Nat} {b : WorkerPhase τ σ} {events : List (PoolEvent τ)}

/-- No task is queued, and no worker has one. -/
structure Idle (p : Pool τ σ) : Prop where
  queue : p.queue = []
  taskless : ∀ x ∈ p.workers, x.phase.task? = none

theorem Idle.of_workers (h : p.Idle) (hq : q.queue = []) (hw : q.workers = p.workers) : q.Idle :=
  ⟨hq, hw ▸ h.taskless⟩

theorem Idle.setPhase (h : p.Idle) (hb : b.task? = none) : (p.setPhase w b).Idle := by
  refine ⟨h.queue, fun x hx => ?_⟩
  obtain ⟨y, hy, rfl⟩ := List.mem_map.mp hx
  split
  · exact hb
  · exact h.taskless y hy

theorem Idle.task? {a : WorkerPhase τ σ} (h : p.Idle) (hw : p.phase? w = some a) : a.task? = none :=
  h.taskless _ (mem_of_phase? hw)

theorem Idle.work {step : WorkerAct σ} (h : p.Idle) (hm : Move p (.work w step) q events) : q.Idle := by
  have hnone {a : WorkerPhase τ σ} {task : τ} (hw : p.phase? w = some a) (ha : a.task? = some task) : False := by
    cases (h.task? hw).symm.trans ha
  cases hm with
  | dismissed | retired | left | waits | expired => exact Idle.setPhase (h.of_workers h.queue rfl) rfl
  | sought | cutOff | stayed => exact h.setPhase rfl
  | took _ hqueue => cases h.queue.symm.trans hqueue
  | recorded hw | heeded hw | entered hw | barred hw | advanced hw | hooked hw | finished hw | completed hw
  | released hw => exact (hnone hw rfl).elim

theorem Idle.halting {step : StopAct} (h : p.Idle) (hm : Move p (.stop step) q events) : q.Idle := by
  cases hm with
  | drained => exact h.of_workers rfl rfl
  | rechecked => exact h
  | _ => exact h.of_workers h.queue rfl

theorem Move.stop_of_work {step : WorkerAct σ} (hm : Move p (.work w step) q events) : q.stop = p.stop := by
  cases hm <;> rfl

/-- How far the stop is from its report. -/
def stopRank (p : Pool τ σ) : Nat :=
  match p.stop with
  | none => 4 + p.queue.length + p.running.length
  | some .halted => 3 + p.queue.length + p.running.length
  | some (.interrupting undone rest) => 2 + undone.length + rest.length
  | some (.awaiting undone) => 1 + undone.length
  | some (.reported undone _) => undone.length

theorem halting_gets_on (hno : p.report? = none) :
    ∃ act q events, (act = p.nextStop false ∨ act = .abandon ∧ ∃ undone, p.stop = some (.awaiting undone)) ∧
      p.halting act = some (q, events) ∧ q.stopRank < p.stopRank := by
  have hnext (act : StopAct) {q : Pool τ σ} {events : List (PoolEvent τ)} (hact : p.nextStop false = act)
      (hstep : p.halting act = some (q, events)) (hrank : q.stopRank < p.stopRank) :
      ∃ act q events, (act = p.nextStop false ∨ act = .abandon ∧ ∃ undone, p.stop = some (.awaiting undone)) ∧
        p.halting act = some (q, events) ∧ q.stopRank < p.stopRank :=
    ⟨act, q, events, .inl hact.symm, hstep, hrank⟩
  obtain ⟨state, hstop⟩ : ∃ state, p.stop = state := ⟨_, rfl⟩
  cases state with
  | none =>
      refine hnext .halt (by simp only [nextStop, hstop]) (by simp only [halting, hstop]; rfl) ?_
      simp only [stopRank, hstop, queue]; omega
  | some stage =>
      cases stage with
      | halted =>
          refine hnext .drain (by simp only [nextStop, hstop]) (by simp only [halting, hstop]; rfl) ?_
          simp [stopRank, hstop, Channel.close, queue]
      | interrupting undone rest =>
          cases rest with
          | nil =>
              by_cases hterminated : p.isTerminated false = true
              · refine hnext (.look false) (by simp only [nextStop, hstop])
                  (by simp only [halting, hstop, hterminated]; rfl) ?_
                simp only [stopRank, hstop, List.length_nil]; omega
              · refine hnext (.look false) (by simp only [nextStop, hstop])
                  (by simp only [halting, hstop, Bool.eq_false_iff.mpr hterminated]; rfl) ?_
                simp only [stopRank, hstop, List.length_nil]; omega
          | cons task rest =>
              refine hnext .interrupt (by simp only [nextStop, hstop]) (by simp only [halting, hstop]; rfl) ?_
              simp [stopRank, hstop]
      | awaiting undone =>
          refine ⟨.abandon, _, _, .inr ⟨rfl, undone, hstop⟩, by simp only [halting, hstop]; rfl, ?_⟩
          simp [stopRank, hstop]
      | reported undone terminated => simp [report?, hstop] at hno

end Pool

variable [Payloads]

/-- How far a closing is from its end. -/
def Closing.rank (k : Closing) (p : Pool Nat WorkStage) : Nat :=
  match k.stage with
  | .stopping => 2 + k.flights.length + p.stopRank
  | .undoing rest => 1 + k.flights.length + rest.length
  | .dropping rest => rest.length

namespace Scheduler

variable {s s' : Scheduler} {p : Pool Nat WorkStage} {act : SchedulerAct} {answers : Answers} {seen : List Sight}
  {events : List SchedulerEvent}

/-- The scheduler was closed when it was at rest, and the call that closes it may be under way. -/
structure Shut (s : Scheduler) : Prop where
  pooled : s.isSynchronous = false
  isClosed : s.isClosed = true
  landed : ∀ (n : Nat) (f : Flight), s.flights[n]? = some f → f.phase = .closed
  idle : ∀ p, s.pool = some p → p.Idle
  others : ∀ c, c ≠ .owner → s.callsOf c = []
  owner : s.callsOf .owner = [] ∨ s.callsOf .owner = [.closing] ∧ ∃ k p, s.closing = some k ∧ s.pool = some p ∧
    (k.stage ≠ .stopping → p.report?.isSome = true)

theorem landed_modify (change : Flight → Flight) (h : ∀ (n : Nat) (f : Flight), s.flights[n]? = some f → f.phase = .closed)
    (hchange : ∀ f, f.phase = .closed → (change f).phase = .closed) (m n : Nat) (g : Flight)
    (hg : (s.flights.modify m change)[n]? = some g) : g.phase = .closed := by
  rw [List.getElem?_modify] at hg
  obtain ⟨f, hf, rfl⟩ := Option.map_eq_some_iff.mp hg
  split
  · exact hchange f (h n f hf)
  · exact h n f hf

/-- Nothing is seen of a scheduler that was closed at rest. -/
theorem Shut.move (h : s.Shut) (hm : Move s act s' events) (hobeys : s.Obeys answers seen act)
    (hrun : ∀ job, act ≠ .run job) : s'.Shut ∧ s.sights act s' events = [] ∧ jobsOf events = [] := by
  have hcaller {c : Caller} {x : Call} {rest : List Call} (hcs : s.callsOf c = x :: rest) :
      c = .owner ∧ x = .closing ∧ rest = [] ∧ ∃ k p, s.closing = some k ∧ s.pool = some p ∧
        (k.stage ≠ .stopping → p.report?.isSome = true) := by
    by_cases hc : c = .owner
    · subst hc
      rcases h.owner with hnil | ⟨hone, hstage⟩
      · cases hnil.symm.trans hcs
      · cases hone.symm.trans hcs; exact ⟨rfl, rfl, rfl, hstage⟩
    · cases (h.others c hc).symm.trans hcs
  have htask {p : Pool Nat WorkStage} {w n : Nat} {a : WorkerPhase Nat WorkStage} (hp : s.pool = some p)
      (hw : p.phase? w = some a) (ha : a.task? = some n) : False := by
    cases ((h.idle p hp).task? hw).symm.trans ha
  cases hm with
  | unknown | mismatched | late | inlined | shutAgain | shut => exact hobeys.elim
  | ignored => exact absurd rfl (hrun _)
  | @turned _ c cs _ ht =>
      generalize hcs : s.callsOf c = before at ht
      cases ht with
      | requested | sent => exact hobeys.elim
      | received | landed => exact absurd rfl (hrun _)
      | closed =>
          obtain ⟨rfl, -, rfl, -⟩ := hcaller hcs
          refine ⟨⟨h.pooled, h.isClosed, h.landed, h.idle, fun c hc => ?_, .inl (callsOf_setCalls_self _ _ _)⟩, rfl, rfl⟩
          rw [callsOf_setCalls, if_neg hc]; exact h.others c hc
      | _ => cases (hcaller hcs).2.1
  | launched hcs | superseded hcs | rearmed hcs | submitted hcs | collected hcs | ranInline hcs | took hcs =>
      cases (hcaller hcs).2.1
  | worked _ hp hw _ hl => cases hl <;> exact (htask hp hw rfl).elim
  | warned _ hp hw => exact (htask hp hw rfl).elim
  | @idled _ w step p q pooled hact hp hw _ _ =>
      have hmove := Pool.work_move hw
      refine ⟨⟨rfl, h.isClosed, h.landed, ?_, h.others, h.owner.imp_right fun ⟨hone, k, p', hk, hp', hreport⟩ => ?_⟩,
        sights_pooled (by rcases hact with rfl | ⟨-, _, rfl⟩ <;> rfl), jobsOf_pooled _⟩
      · rintro _ ⟨⟩
        exact (h.idle p hp).work hmove
      · cases hp.symm.trans hp'
        refine ⟨hone, k, q, hk, rfl, fun hstage => ?_⟩
        rw [Pool.report?, hmove.stop_of_work]
        exact hreport hstage
  | @halted _ _ _ step p q k pooled hcs hk hstage hp hh _ =>
      obtain ⟨rfl, -, rfl, -⟩ := hcaller hcs
      refine ⟨⟨rfl, h.isClosed, h.landed, ?_, h.others, .inr ⟨hcs, k, q, hk, rfl, absurd hstage⟩⟩,
        sights_pooled rfl, jobsOf_pooled _⟩
      rintro _ ⟨⟩
      exact (h.idle p hp).halting (Pool.halting_move hh)
  | @alarmed _ _ _ _ n p q k hcs hk hstage hp hh =>
      obtain ⟨rfl, -, rfl, -⟩ := hcaller hcs
      refine ⟨⟨rfl, h.isClosed, landed_modify Flight.interrupt h.landed (fun _ hf => hf) n, ?_, h.others,
        .inr ⟨hcs, k, q, hk, rfl, absurd hstage⟩⟩, rfl, rfl⟩
      rintro _ ⟨⟩
      exact (h.idle p hp).halting (Pool.halting_move hh)
  | @abandoned _ _ p q undone hcs hp hstop hh =>
      obtain ⟨rfl, -, rfl, k, p', hk, hp', hreport⟩ := hcaller hcs
      cases hp.symm.trans hp'
      refine ⟨⟨rfl, h.isClosed, h.landed, ?_, h.others, .inr ⟨hcs, k, q, hk, rfl, fun hstage => ?_⟩⟩, rfl, rfl⟩
      · rintro _ ⟨⟩
        exact (h.idle p hp).halting (Pool.halting_move hh)
      · have := hreport hstage
        simp [Pool.report?, hstop] at this
  | reported hcs _ _ hp hreport | undone hcs _ _ hp hreport =>
      obtain ⟨rfl, -, rfl, -⟩ := hcaller hcs
      exact ⟨⟨h.pooled, h.isClosed, h.landed, h.idle, h.others, .inr ⟨hcs, _, _, rfl, hp, fun _ => by simp [hreport]⟩⟩,
        rfl, rfl⟩
  | @gaveUp _ _ _ k n _ _ hcs hk hstage =>
      obtain ⟨rfl, -, rfl, k', p, hk', hp, hreport⟩ := hcaller hcs
      cases hk.symm.trans hk'
      refine ⟨⟨h.pooled, h.isClosed, landed_modify Flight.close h.landed (fun _ _ => rfl) n, h.idle, h.others,
        .inr ⟨hcs, _, p, rfl, hp, fun _ => hreport ?_⟩⟩, rfl, rfl⟩
      rcases hstage with ⟨e, -⟩ | ⟨e, -⟩ <;> simp [e]

/-! ## Coming to the end -/

/-- How far the call that closes the scheduler is from its end. -/
def closingRank (s : Scheduler) : Nat :=
  match s.callsOf .owner, s.closing, s.pool with
  | _ :: _, some k, some p => 1 + k.rank p
  | _, _, _ => 0

theorem withPool_rest (s : Scheduler) (q : Pool Nat WorkStage) (pooled : List (PoolEvent Nat)) :
    (s.withPool q pooled).1.calls = s.calls ∧ (s.withPool q pooled).1.closing = s.closing ∧
      (s.withPool q pooled).1.pool = some q := by
  have hheed (pooled : List (PoolEvent Nat)) : ∀ u : Scheduler,
      (u.heed pooled).calls = u.calls ∧ (u.heed pooled).closing = u.closing ∧ (u.heed pooled).pool = u.pool := by
    induction pooled with
    | nil => intro u; exact ⟨rfl, rfl, rfl⟩
    | cons e pooled ih =>
        intro u
        cases e <;> exact ih _
  exact hheed pooled _

theorem closingRank_eq {k : Closing} (hcs : s.callsOf .owner = [.closing]) (hk : s.closing = some k)
    (hp : s.pool = some p) : s.closingRank = 1 + k.rank p := by
  simp only [closingRank, hcs, hk, hp]

/-- The call that closes the scheduler gets on, if need be because it gives up waiting for the workers. -/
theorem Shut.gets_on (h : s.Shut) (hcs : s.callsOf .owner = [.closing]) :
    ∃ act s' events, act.isPlain = true ∧ (∀ job, act ≠ .run job) ∧ s.step act = some (s', events) ∧
      s'.closingRank < s.closingRank := by
  obtain ⟨k, p, hk, hp, hreport⟩ : ∃ k p, s.closing = some k ∧ s.pool = some p ∧
      (k.stage ≠ .stopping → p.report?.isSome = true) := by
    rcases h.owner with hnil | ⟨-, hstage⟩
    · cases hnil.symm.trans hcs
    · exact hstage
  -- the rank orders the stages from the stop of the pool over its undone flights to those that are dropped
  have hadvance : s.step (.advance .owner none) = s.advanceClosing .owner [] := by
    simp only [step, advance, hcs, advanceCall]
  have hgo (act : SchedulerAct) {u : Scheduler} {events : List SchedulerEvent} {k' : Closing} {p' : Pool Nat WorkStage}
      (hact : act.isPlain = true) (hrun : ∀ job, act ≠ .run job) (hstep : s.step act = some (u, events))
      (hcalls : u.calls = s.calls) (hk' : u.closing = some k') (hp' : u.pool = some p') (hlt : k'.rank p' < k.rank p) :
      ∃ act s' events, act.isPlain = true ∧ (∀ job, act ≠ .run job) ∧ s.step act = some (s', events) ∧
        s'.closingRank < s.closingRank := by
    refine ⟨act, u, events, hact, hrun, hstep, ?_⟩
    rw [closingRank_eq hcs hk hp, closingRank_eq ((callsOf_congr hcalls).trans hcs) hk' hp']
    omega
  cases hstage : k.stage with
  | dropping rest =>
      cases rest with
      | nil =>
          have hstep : s.advanceClosing .owner [] = some (s.finish .owner [] [.closed k.flights.length]) := by
            simp only [advanceClosing, hk, Option.bind_some, hstage]
          refine ⟨.advance .owner none, _, _, rfl, by simp, hadvance.trans hstep, ?_⟩
          have hend : (s.setCalls .owner []).closingRank = 0 := by simp [closingRank]
          rw [closingRank_eq hcs hk hp, hend]
          omega
      | cons n more =>
          have hstep : s.advanceClosing .owner []
              = some ({ s with closing := some { k with stage := .dropping more } }.closeFlight n, []) := by
            simp only [advanceClosing, hk, Option.bind_some, hstage]
          refine hgo _ rfl (by simp) (hadvance.trans hstep) rfl rfl hp ?_
          simp [Closing.rank, hstage]
  | undoing rest =>
      obtain ⟨⟨undone, terminated⟩, hreported⟩ := Option.isSome_iff_exists.mp (hreport (by simp [hstage]))
      cases rest with
      | nil =>
          have hstep : s.advanceClosing .owner []
              = some ({ s with closing := some { k with stage := .dropping k.flights } },
                  [.poolStopped undone.length terminated]) := by
            simp only [advanceClosing, hk, Option.bind_some, hstage, hp, hreported, Option.map_some]
          refine hgo _ rfl (by simp) (hadvance.trans hstep) rfl rfl hp ?_
          simp only [Closing.rank, hstage]; omega
      | cons n more =>
          have hstep : s.advanceClosing .owner []
              = some ({ s with closing := some { k with stage := .undoing more } }.closeFlight n, []) := by
            simp only [advanceClosing, hk, Option.bind_some, hstage]
          refine hgo _ rfl (by simp) (hadvance.trans hstep) rfl rfl hp ?_
          simp [Closing.rank, hstage]
  | stopping =>
      cases hreported : p.report? with
      | some report =>
          have hstep : s.advanceClosing .owner []
              = some ({ s with closing := some { k with stage := .undoing report.1 } }, []) := by
            simp only [advanceClosing, hk, Option.bind_some, hstage, hp, hreported]
          have hstop : p.stop = some (.reported report.1 report.2) := by
            unfold Pool.report? at hreported
            split at hreported <;> cases hreported
            assumption
          refine hgo _ rfl (by simp) (hadvance.trans hstep) rfl rfl hp ?_
          simp only [Closing.rank, hstage, Pool.stopRank, hstop]; omega
      | none =>
          obtain ⟨act, q, pooled, hact, hstep, hrank⟩ := p.halting_gets_on hreported
          have hstop : s.stopStep act = some (s.withPool q pooled) := by
            simp only [stopStep, hp, Option.bind_some, hstep, Option.map_some]
          obtain ⟨hcalls, hclosing, hpool⟩ := withPool_rest s q pooled
          have hlt : k.rank q < k.rank p := by simp only [Closing.rank, hstage]; omega
          rcases hact with rfl | ⟨rfl, undone, hawaiting⟩
          · have hnext : s.advanceClosing .owner [] = some (s.withPool q pooled) := by
              simp only [advanceClosing, hk, Option.bind_some, hstage, hp, hreported]
              exact hstop
            exact hgo _ rfl (by simp) (hadvance.trans hnext) hcalls (hclosing.trans hk) hpool hlt
          · have hnext : s.step (.abandon .owner) = some (s.withPool q pooled) := by
              simp only [step, isAwaiting, hcs, hp, Option.bind_some, hawaiting, if_true]
              exact hstop
            exact hgo _ rfl (by simp) hnext hcalls (hclosing.trans hk) hpool hlt

end Scheduler

namespace System

variable {answers : Answers} {sys sys' : System} {act : SchedulerAct} {seen : List Sight} {events : List SchedulerEvent}

/-! ## Systems -/

/-- The scheduler was closed when it was at rest. -/
structure Resting (sys : System) : Prop where
  shut : sys.scheduler.Shut
  jobs : sys.loop.queue = []

theorem Resting.step (h : sys.Resting) (hobeys : sys.scheduler.Obeys answers seen act)
    (hstep : sys.step (.thread act) = some (sys', events)) :
    sys'.Resting ∧ sys.scheduler.sights act sys'.scheduler events = [] := by
  obtain ⟨loop, hyield, hm, hposted⟩ := step_thread_cases hstep
  obtain ⟨hclosed, hqueue⟩ := OwnerLoop.yield_cases hyield
  have hrun (job : Posted) : act ≠ .run job := by
    rintro rfl
    rcases hqueue with ⟨hno, -⟩ | ⟨_, -, e⟩
    · exact hno job rfl
    · rw [h.jobs] at e; cases e
  obtain ⟨hshut, hsights, hjobs⟩ := h.shut.move hm hobeys hrun
  refine ⟨⟨hshut, ?_⟩, hsights⟩
  rw [hposted, show events.filterMap SchedulerEvent.job? = [] from hjobs]
  rcases hqueue with ⟨-, e⟩ | ⟨job, hact, -⟩
  · exact e.trans h.jobs
  · exact absurd hact (hrun job)

/-- A scheduler that was closed at rest comes to rest. -/
theorem Resting.rests (answers : Answers) (h : sys.Resting) (seen : List Sight) :
    ∃ sys' seen', Follows answers sys seen sys' seen' ∧ sys'.Quiescent := by
  refine Follows.rests (measure fun sys : System => sys.scheduler.closingRank).wf (fun sys seen h => ?_) h seen
  rcases h.shut.owner with hnil | ⟨hcs, -⟩
  · exact .inl ⟨hnil, h.jobs, fun p hp => (h.shut.idle p hp).queue, fun p hp => (h.shut.idle p hp).taskless⟩
  · obtain ⟨act, s', events, hact, hrun, hs, hlt⟩ := h.shut.gets_on hcs
    obtain ⟨sys', hstep, rfl⟩ := step_thread hrun hs
    have hobeys : sys.scheduler.Obeys answers seen act := obeys_of_plain hact
    exact .inr ⟨act, sys', events, hobeys, hstep, (h.step hobeys hstep).1, hlt⟩

end System

end SingleFlight
