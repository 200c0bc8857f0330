import SingleFlight.Proofs.Scheduler.Single

/-!
# When a thread can get on

The innermost call of a thread can always be taken on, and so can a worker that neither waits, has left, nor is inside
of its function, as long as the flights that they have to do with exist.
-/

namespace SingleFlight

namespace Pool

variable {τ σ : Type} {p : Pool τ σ} {w : Nat} {a : WorkerPhase τ σ}

theorem work_routine {step : WorkerAct σ} (hw : p.phase? w = some a) (ha : routine? a = some step) :
    ∃ q events, p.work w step = some (q, events) := by
  cases a with
  | seeking =>
      cases ha
      simp only [work, hw]
      split
      · exact ⟨_, _, rfl⟩
      · exact ⟨_, _, rfl⟩
  | listening timed =>
      cases ha
      simp only [work, hw]
      split
      · exact ⟨_, _, rfl⟩
      · exact ⟨_, _, rfl⟩
      · exact ⟨_, _, rfl⟩
  | expired =>
      cases ha
      simp only [work, hw]
      split
      · exact ⟨_, _, rfl⟩
      · exact ⟨_, _, rfl⟩
  | disconnected | holding | recorded | leaving => cases ha; exact ⟨_, _, by simp only [work, hw]; rfl⟩
  | waiting | ready | working | worked | retired => cases ha

end Pool

variable [Payloads]

namespace Scheduler

variable {s : Scheduler} {p : Pool Nat WorkStage} {c : Caller} {w n : Nat} {f : Flight} {r : Registration}
  {a : WorkerPhase Nat WorkStage} {rest : List Call} {refusal : Option IoError}

/-- The step is possible now. -/
def Enables (s : Scheduler) (act : SchedulerAct) : Prop := ∃ s' events, s.step act = some (s', events)

/-! ## Calls -/

theorem enables_applying {id : ActionId} {input : Payload} (hcs : s.callsOf c = .applying id input :: rest) :
    s.Enables (.advance c refusal) :=
  ⟨_, _, by simp only [step, advance, hcs, advanceCall]; rfl⟩

theorem enables_submitting (hcs : s.callsOf c = .submitting n :: rest) (hp : s.pool = some p)
    (hf : s.flights[n]? = some f) : s.Enables (.advance c refusal) := by
  simp only [Enables, step, advance, hcs, advanceCall, submit, hp, hf]
  split
  · exact ⟨_, _, rfl⟩
  · exact ⟨_, _, rfl⟩
  · exact ⟨_, _, rfl⟩

theorem enables_finishing (hcs : s.callsOf c = .finishing n :: rest) (hf : s.flights[n]? = some f) :
    s.Enables (.advance c refusal) := by
  simp only [Enables, step, advance, hcs, advanceCall, collect, hf]
  exact ⟨_, _, rfl⟩

theorem enables_delivering {o : Outcome} (hcs : s.callsOf c = .delivering n o :: rest) (hf : s.flights[n]? = some f)
    (hr : s.registration? f.action = some r) : s.Enables (.advance c refusal) := by
  simp only [Enables, step, advance, hcs, advanceCall, deliver, hf, Option.bind_some, hr, Option.map_some]
  exact ⟨_, _, rfl⟩

theorem enables_calling (hcs : s.callsOf c = .calling n :: rest) : s.Enables (.leave c none) :=
  ⟨_, _, by simp only [step, leave, hcs]; rfl⟩

/-! ## Workers -/

theorem workerStep_some {step : WorkerAct WorkStage} {q : Pool Nat WorkStage} {pooled : List (PoolEvent Nat)}
    {events : List SchedulerEvent} (hp : s.pool = some p) (hw : p.work w step = some (q, pooled)) :
    ∃ s' events', s.workerStep w step events = some (s', events') :=
  ⟨_, _, by simp only [workerStep, hp, Option.bind_some, hw, Option.map_some]; rfl⟩

theorem step_worker (hcs : s.callsOf (.worker w) = []) : s.step (.advance (.worker w) refusal) = s.advanceWorker w := by
  simp only [step, advance, hcs]

theorem enables_routine {step : WorkerAct WorkStage} (hcs : s.callsOf (.worker w) = []) (hp : s.pool = some p)
    (hw : p.phase? w = some a) (ha : Pool.routine? a = some step) : s.Enables (.advance (.worker w) refusal) := by
  obtain ⟨q, pooled, hstep⟩ := Pool.work_routine hw ha
  have hnext : p.nextRoutine? w = some step := by
    cases a with
    | waiting => cases ha
    | _ => simp only [Pool.nextRoutine?, hw]; exact ha
  have hadvance : s.advanceWorker w = s.workerStep w step [] := by
    cases a with
    | ready | working | worked => cases ha
    | _ => simp only [advanceWorker, hp, Option.bind_some, hw, hnext]
  rw [Enables, step_worker hcs, hadvance]
  exact workerStep_some hp hstep

theorem enables_ready (hcs : s.callsOf (.worker w) = []) (hp : s.pool = some p) (hw : p.phase? w = some (.ready n))
    (hf : s.flights[n]? = some f) : s.Enables (.advance (.worker w) refusal) := by
  simp only [Enables, step_worker hcs, advanceWorker, hp, Option.bind_some, hw, enter, hf]
  exact workerStep_some (s := s.setFlight n _) hp (by simp only [Pool.work, hw]; rfl)

theorem enables_running {stage : RunStage} (hcs : s.callsOf (.worker w) = []) (hp : s.pool = some p)
    (hw : p.phase? w = some (.working n (.running stage))) (hf : s.flights[n]? = some f)
    (hr : s.registration? f.action = some r) (hstage : ∀ input token, stage ≠ .invoking input token) :
    s.Enables (.advance (.worker w) refusal) := by
  have hrun : ∃ g next events, s.runStep (.worker w) n stage = some (s.setFlight n g, next, events) := by
    cases stage with
    | starting =>
        simp only [runStep, hf, Option.bind_some]
        rcases f.start with ⟨g, _ | message | ⟨input, token⟩⟩
        · exact ⟨_, _, _, rfl⟩
        · exact ⟨_, _, _, rfl⟩
        · simp only [hr, Option.map_some]
          cases r.callInput input with
          | ok given => exact ⟨_, _, _, rfl⟩
          | error failure => exact ⟨_, _, _, rfl⟩
    | invoking input token => exact absurd rfl (hstage input token)
    | settling token outcome =>
        simp only [runStep, hf, Option.bind_some]
        rcases f.settle token outcome with ⟨g, _ | _ | _⟩
        · exact ⟨_, _, _, rfl⟩
        · exact ⟨_, _, _, rfl⟩
        · exact ⟨_, _, _, rfl⟩
  obtain ⟨g, next, events, hrun⟩ := hrun
  simp only [Enables, step_worker hcs, advanceWorker, hp, Option.bind_some, hw, runOnWorker, hrun]
  cases next with
  | stay stage => exact workerStep_some (s := s.setFlight n g) hp (by simp only [Pool.work, hw]; rfl)
  | returned => exact workerStep_some (s := s.setFlight n g) hp (by simp only [Pool.work, hw]; rfl)
  | panicked message => exact workerStep_some (s := s.setFlight n g) hp (by simp only [Pool.work, hw]; rfl)

theorem enables_hook {panic : Option String} {stage : WorkStage} (hcs : s.callsOf (.worker w) = []) (hp : s.pool = some p)
    (hw : p.phase? w = some (.worked n panic stage)) (hf : s.flights[n]? = some f)
    (hstage : ∀ inner, stage ≠ .running inner) : s.Enables (.advance (.worker w) refusal) := by
  simp only [Enables, step_worker hcs, advanceWorker, hp, Option.bind_some, hw, handBack, hf]
  cases stage with
  | running inner => exact absurd rfl (hstage inner)
  | failing message => exact workerStep_some (s := s.setFlight n _) hp (by simp only [Pool.work, hw]; rfl)
  | unbinding => exact workerStep_some (s := s.setFlight n _) hp (by simp only [Pool.work, hw]; rfl)
  | returning =>
      dsimp only
      split
      · exact workerStep_some hp (by simp only [Pool.work, hw]; rfl)
      · exact workerStep_some hp (by simp only [Pool.work, hw]; rfl)
  | posting => exact workerStep_some hp (by simp only [Pool.work, hw]; rfl)

theorem enables_reply {input : Payload} {token : Token} (hcs : s.callsOf (.worker w) = []) (hp : s.pool = some p)
    (hw : p.phase? w = some (.working n (.running (.invoking input token)))) (hf : s.flights[n]? = some f)
    (hr : s.registration? f.action = some r) (answer : Reply) : s.Enables (.reply (.worker w) answer) := by
  simp only [Enables, step, reply, hcs, hp, Option.bind_some, hw, hf, hr, Option.map_some]
  exact workerStep_some hp (by simp only [Pool.work, hw]; rfl)

end Scheduler

end SingleFlight
