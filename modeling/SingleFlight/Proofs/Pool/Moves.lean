import SingleFlight.Proofs.Pool.Steps

/-!
# What a step of a pool can do

The rules of the step function of a pool one by one: a submission, a worker outside of tasks, around a task and inside
of it, and the threads that stop the pool.
-/

namespace SingleFlight.Pool

variable {τ σ : Type} {p q : Pool τ σ} {act : PoolAct τ σ} {events : List (PoolEvent τ)}

/-- The pool with the task entered as the one that the worker runs. -/
def enlist (p : Pool τ σ) (worker : Nat) (task : τ) : Pool τ σ :=
  { p with running := p.running.filter (·.1 ≠ worker) ++ [(worker, task)] }

/-- The pool without an entry for the worker. -/
def strike (p : Pool τ σ) (worker : Nat) : Pool τ σ := { p with running := p.running.filter (·.1 ≠ worker) }

/-- `Move p act q events`: the step `act` takes the pool `p` to `q`. -/
inductive Move (p : Pool τ σ) : PoolAct τ σ → Pool τ σ → List (PoolEvent τ) → Prop
  | submitted {task refusal q events} : Admission p task refusal q events → Move p (.submit task refusal) q events
  /- Workers outside of tasks. -/
  | dismissed {w} : p.phase? w = some .seeking → p.isStopping = true →
      Move p (.work w .seek) (p.retire w).1 [.retired w]
  | sought {w} : p.phase? w = some .seeking → p.isStopping = false →
      Move p (.work w .seek) (p.setPhase w (.listening (p.settings.coreTimeout || p.settings.core < p.live))) []
  | took {w timed task rest} : p.phase? w = some (.listening timed) → p.queue = task :: rest →
      Move p (.work w .receive)
        (({ p with channel := { p.channel with buffer := rest } }).setPhase w (.holding task)) []
  | waits {w timed} : p.phase? w = some (.listening timed) → p.queue = [] → p.channel.isOpen = true →
      Move p (.work w .receive)
        (({ p with channel := { p.channel with waiting := p.channel.waiting ++ [w] } }).setPhase w (.waiting timed)) []
  | cutOff {w timed} : p.phase? w = some (.listening timed) ∧ p.queue = [] ∨ p.phase? w = some (.waiting timed) →
      p.channel.isOpen = false → Move p (.work w .receive) (p.setPhase w .disconnected) []
  | expired {w} : p.phase? w = some (.waiting true) →
      Move p (.work w .expire) (({ p with channel := p.channel.withdraw w }).setPhase w .expired) []
  | retired {w} : p.phase? w = some .expired → 1 < p.live ∨ p.queue = [] →
      Move p (.work w .decide) (p.retire w).1 [.retired w]
  | stayed {w} : p.phase? w = some .expired → p.live ≤ 1 → p.queue ≠ [] →
      Move p (.work w .decide) (p.setPhase w .seeking) []
  | left {w} : p.phase? w = some .disconnected → Move p (.work w .leave) (p.retire w).1 [.retired w]
  /- Workers with a task. -/
  | recorded {w task} : p.phase? w = some (.holding task) →
      Move p (.work w .record) ((p.enlist w task).setPhase w (.recorded task)) []
  | heeded {w task} : p.phase? w = some (.recorded task) →
      Move p (.work w .heed) (p.setPhase w (.ready task)) (if p.isStopping then [.interrupted task] else [])
  | entered {w task stage} : p.phase? w = some (.ready task) →
      Move p (.work w (.enter stage none)) (p.setPhase w (.working task stage)) [.before w task, .ran w task]
  /-- The hook before the task panics, and the task is not run. -/
  | barred {w task stage message} : p.phase? w = some (.ready task) →
      Move p (.work w (.enter stage (some message))) (p.setPhase w (.worked task (some message) stage))
        [.before w task, .panicked w task message]
  | advanced {w task stage stage'} : p.phase? w = some (.working task stage) →
      Move p (.work w (.advance stage')) (p.setPhase w (.working task stage')) []
  | hooked {w task panic stage stage'} : p.phase? w = some (.worked task panic stage) →
      Move p (.work w (.advance stage')) (p.setPhase w (.worked task panic stage')) []
  | finished {w task stage stage' panic} : p.phase? w = some (.working task stage) →
      Move p (.work w (.finish stage' panic)) (p.setPhase w (.worked task panic stage')) (panicEvents w task panic)
  | completed {w task panic stage hookPanic} : p.phase? w = some (.worked task panic stage) →
      Move p (.work w (.complete hookPanic)) (p.setPhase w (.leaving task))
        (.after w task panic :: hookPanic.toList.map (.hookPanicked w))
  | released {w task} : p.phase? w = some (.leaving task) →
      Move p (.work w .release) ((p.strike w).setPhase w .seeking) []
  /- Stops. -/
  | halted : p.stop = none → Move p (.stop .halt) { p with stop := some .halted } []
  | drained : p.stop = some .halted →
      Move p (.stop .drain)
        { p with channel := p.channel.close.1, stop := some (.interrupting p.queue (p.running.map (·.2))) } []
  | interrupted {undone task rest} : p.stop = some (.interrupting undone (task :: rest)) →
      Move p (.stop .interrupt) { p with stop := some (.interrupting undone rest) } [.interrupted task]
  | reported {undone onWorker} : p.stop = some (.interrupting undone []) ∨ p.stop = some (.awaiting undone) →
      p.isTerminated onWorker = true →
      Move p (.stop (.look onWorker)) { p with stop := some (.reported undone true) } [.stopped undone true]
  | awaits {undone onWorker} : p.stop = some (.interrupting undone []) → p.isTerminated onWorker = false →
      Move p (.stop (.look onWorker)) { p with stop := some (.awaiting undone) } []
  | abandoned {undone} : p.stop = some (.awaiting undone) →
      Move p (.stop .abandon) { p with stop := some (.reported undone false) } [.stopped undone false]
  | rechecked {onWorker} : p.isStopping = true →
      Move p (.stop (.recheck onWorker)) p [.rechecked (p.isTerminated onWorker)]

/-! ## Every step is one of the moves -/

theorem receive_move {w : Nat} {timed : Bool} (hw : p.phase? w = some (.listening timed))
    (h : p.work w .receive = some (q, events)) : Move p (.work w .receive) q events := by
  simp only [work, hw] at h
  split at h
  all_goals
    rename_i hr
    unfold Channel.receive at hr
    split at hr
  · rename_i hb; cases hr; cases h; exact .took hw hb
  · split at hr <;> cases hr
  · cases hr
  · rename_i hb
    split at hr
    · rename_i ho; cases hr; cases h; exact .waits hw hb ho
    · cases hr
  · cases hr
  · rename_i hb
    split at hr
    · cases hr
    · rename_i ho; cases hr; cases h; exact .cutOff (.inl ⟨hw, hb⟩) (by simpa using ho)

theorem work_move {w : Nat} {step : WorkerAct σ} (h : p.work w step = some (q, events)) :
    Move p (.work w step) q events := by
  cases hw : p.phase? w with
  | none => simp [work, hw] at h
  | some a =>
      cases a with
      | seeking =>
          cases step with
          | seek =>
              simp only [work, hw] at h
              split at h
              · rename_i hs; cases h; exact .dismissed hw hs
              · rename_i hs; cases h; exact .sought hw (by simpa using hs)
          | _ => simp [work, hw] at h
      | listening timed =>
          cases step with
          | receive => exact receive_move hw h
          | _ => simp [work, hw] at h
      | waiting timed =>
          cases step with
          | receive =>
              simp only [work, hw] at h
              split at h
              · cases h
              · rename_i ho; cases h; exact .cutOff (.inr hw) (by simpa using ho)
          | expire =>
              cases timed with
              | true => simp only [work, hw] at h; cases h; exact .expired hw
              | false => simp [work, hw] at h
          | _ => cases timed <;> simp [work, hw] at h
      | expired =>
          cases step with
          | decide =>
              simp only [work, hw] at h
              split at h
              · rename_i hd; cases h; exact .retired hw (by simpa using hd)
              · rename_i hd
                cases h
                simp only [Bool.or_eq_true, decide_eq_true_eq, List.isEmpty_iff, not_or, Nat.not_lt] at hd
                exact .stayed hw hd.1 hd.2
          | _ => simp [work, hw] at h
      | disconnected =>
          cases step with
          | leave => simp only [work, hw] at h; cases h; exact .left hw
          | _ => simp [work, hw] at h
      | holding task =>
          cases step with
          | record => simp only [work, hw] at h; cases h; exact .recorded hw
          | _ => simp [work, hw] at h
      | recorded task =>
          cases step with
          | heed => simp only [work, hw] at h; cases h; exact .heeded hw
          | _ => simp [work, hw] at h
      | ready task =>
          cases step with
          | enter stage panic =>
              cases panic with
              | none => simp only [work, hw] at h; cases h; exact .entered hw
              | some message => simp only [work, hw] at h; cases h; exact .barred hw
          | _ => simp [work, hw] at h
      | working task stage =>
          cases step with
          | advance stage' => simp only [work, hw] at h; cases h; exact .advanced hw
          | finish stage' panic => simp only [work, hw] at h; cases h; exact .finished hw
          | _ => simp [work, hw] at h
      | worked task panic stage =>
          cases step with
          | advance stage' => simp only [work, hw] at h; cases h; exact .hooked hw
          | complete hookPanic =>
              have hmove : Move p (.work w (.complete hookPanic)) _ _ := .completed hw
              simp only [work, hw] at h
              cases hookPanic <;> (cases h; exact hmove)
          | _ => simp [work, hw] at h
      | leaving task =>
          cases step with
          | release => simp only [work, hw] at h; cases h; exact .released hw
          | _ => simp [work, hw] at h
      | retired => simp [work, hw] at h

theorem halting_move {step : StopAct} (h : p.halting step = some (q, events)) : Move p (.stop step) q events := by
  unfold halting at h
  split at h
  · rename_i hs; cases h; exact .halted hs
  · rename_i hs; cases h; exact .drained hs
  · rename_i hs; cases h; exact .interrupted hs
  · rename_i hs
    split at h
    · rename_i ht; cases h; exact .reported (.inl hs) ht
    · rename_i ht; cases h; exact .awaits hs (by simpa using ht)
  · rename_i hs
    split at h
    · rename_i ht; cases h; exact .reported (.inr hs) ht
    · cases h
  · rename_i hs; cases h; exact .abandoned hs
  · rename_i hs; cases h; exact .rechecked (by simp [isStopping, hs])
  · cases h

theorem step_move (h : p.step act = some (q, events)) : Move p act q events := by
  cases act with
  | submit task refusal =>
      have ha := submit_admission p task refusal
      simp only [step, Option.some.injEq] at h
      rw [h] at ha
      exact .submitted ha
  | work w step => exact work_move h
  | stop step => exact halting_move h

end SingleFlight.Pool
