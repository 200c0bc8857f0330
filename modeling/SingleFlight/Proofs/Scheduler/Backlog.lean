import Mathlib.Algebra.GroupWithZero.Nat
import SingleFlight.Proofs.Scheduler.Enabled
import SingleFlight.Proofs.Steady

/-!
# What is left to do

Every call, every job in the loop, every queued flight and every worker with a flight has some way to go to its end.
Left in peace, a scheduler with a pool shortens the sum of these ways with every step that no request makes, or an
idle worker comes closer to its rest. So its runs are finite.
-/

namespace SingleFlight

open Scheduler

/-! ## Ways -/

namespace Pool

variable {τ σ : Type} {p q : Pool τ σ} {w : Nat} {a b : WorkerPhase τ σ}

/-- The sum of a measure over all workers. -/
def load (p : Pool τ σ) (cost : WorkerPhase τ σ → Nat) : Nat := (p.workers.map fun x => cost x.phase).sum

variable {cost : WorkerPhase τ σ → Nat}

theorem sum_map_phase {ws : List (Worker τ σ)} (hd : (ws.map (·.id)).Nodup)
    (h : (ws.find? (·.id = w)).map (·.phase) = some a) :
    ((ws.map fun x => if x.id = w then { x with phase := b } else x).map fun x => cost x.phase).sum + cost a
      = (ws.map fun x => cost x.phase).sum + cost b := by
  induction ws with
  | nil => simp at h
  | cons x ws ih =>
      obtain ⟨hx, hd⟩ := List.nodup_cons.mp hd
      by_cases hw : x.id = w
      · have ha : x.phase = a := by simpa [hw] using h
        have hrest : (ws.map fun x => if x.id = w then { x with phase := b } else x) = ws := by
          refine (List.map_congr_left fun y hy => if_neg fun hy' => hx ?_).trans (List.map_id' ws)
          exact List.mem_map.mpr ⟨y, hy, hy'.trans hw.symm⟩
        simp only [List.map_cons, hw, ↓reduceIte, hrest, List.sum_cons, ha]
        omega
      · have hf : (ws.find? (·.id = w)).map (·.phase) = some a := by simpa [hw] using h
        have := ih hd hf
        simp only [List.map_cons, hw, ↓reduceIte, List.sum_cons]
        omega

theorem load_setPhase (cost : WorkerPhase τ σ → Nat) (b : WorkerPhase τ σ) (hd : (p.workers.map (·.id)).Nodup)
    (hw : p.phase? w = some a) :
    (p.setPhase w b).load cost + cost a = p.load cost + cost b :=
  sum_map_phase hd hw

theorem load_launch (cost : WorkerPhase τ σ → Nat) (p : Pool τ σ) (first : Option τ) :
    (p.launch first).load cost = p.load cost + cost (firstPhase first) := by
  simp [load, workers_launch]

end Pool

variable [Payloads]

/-- How far a call is from its end, with the run of the flight that it may start. -/
def Call.cost : Call → Nat
  | .posting _ _ => 33
  | .applying _ _ => 30
  | .offering _ _ => 29
  | .submitting _ => 28
  | .running _ .starting => 12
  | .running _ (.invoking _ _) => 11
  | .running _ (.settling _ _) => 10
  | .taking _ => 9
  | .finishing _ => 7
  | .delivering _ _ => 6
  | .calling _ => 5
  | .closing => 1

def Posted.cost : Posted → Nat
  | .request _ _ => 31
  | .handBack _ => 8

/-- How far a worker is from the end of its task. -/
def WorkerPhase.cost : WorkerPhase Nat WorkStage → Nat
  | .holding _ => 24
  | .recorded _ => 23
  | .ready _ => 22
  | .working _ (.running .starting) => 20
  | .working _ (.running (.invoking _ _)) => 18
  | .working _ _ => 16
  | .worked _ _ (.failing _) => 15
  | .worked _ _ .unbinding => 14
  | .worked _ _ .returning => 13
  | .worked _ _ _ => 12
  | .leaving _ => 1
  | _ => 0

/-- How far an idle worker is from taking a task or from its rest, if tasks are queued or not. -/
def WorkerPhase.unrest (queued : Bool) : WorkerPhase Nat WorkStage → Nat
  | .waiting _ => if queued then 7 else 3
  | .expired => if queued then 6 else 2
  | .seeking => 5
  | .listening _ => 4
  | .disconnected => 1
  | _ => 0

/-! ## Turns and labour -/

/-- The ways of a list of calls. -/
def costs (calls : List Call) : Nat := (calls.map Call.cost).sum

/-- The ways of the jobs in a list. -/
def dues (jobs : List Posted) : Nat := (jobs.map Posted.cost).sum

@[simp] theorem costs_nil : costs [] = 0 := rfl

@[simp] theorem costs_cons (x : Call) (cs : List Call) : costs (x :: cs) = x.cost + costs cs := rfl

@[simp] theorem dues_nil : dues [] = 0 := rfl

@[simp] theorem dues_cons (job : Posted) (jobs : List Posted) : dues (job :: jobs) = job.cost + dues jobs := rfl

theorem dues_append (jobs more : List Posted) : dues (jobs ++ more) = dues jobs + dues more := by
  simp [dues]

/-- The jobs that the events post. -/
def jobsOf (events : List SchedulerEvent) : List Posted := events.filterMap SchedulerEvent.job?

@[simp] theorem jobsOf_nil : jobsOf [] = [] := rfl

@[simp] theorem jobsOf_cons (e : SchedulerEvent) (events : List SchedulerEvent) :
    jobsOf (e :: events) = e.job?.toList ++ jobsOf events := by
  cases h : e.job? <;> simp [jobsOf, h]

@[simp] theorem jobsOf_append (events more : List SchedulerEvent) :
    jobsOf (events ++ more) = jobsOf events ++ jobsOf more :=
  List.filterMap_append

@[simp] theorem jobsOf_pooled (pooled : List (PoolEvent Nat)) : jobsOf (pooled.map .pool) = [] := by
  simp [jobsOf, SchedulerEvent.job?]

/-- The way of the job that a step runs. -/
def SchedulerAct.due : SchedulerAct → Nat
  | .run job => job.cost
  | _ => 0

namespace Scheduler

variable {s s' : Scheduler} {p q : Pool Nat WorkStage} {act : SchedulerAct} {c : Caller} {n w : Nat} {f g : Flight}
  {a b : WorkerPhase Nat WorkStage} {events : List SchedulerEvent}

/-- A turn that no request makes shortens the ways of the calls. -/
theorem Turn.cost {cs cs' : List Call} (h : Turn s act c cs cs' events) (hact : ∀ c id input, act ≠ .apply c id input) :
    costs cs' + dues (jobsOf events) < costs cs + act.due := by
  cases h with
  | requested | sent => exact absurd rfl (hact _ _ _)
  | _ => simp [SchedulerEvent.job?, SchedulerAct.due, Call.cost, Posted.cost] <;> omega

/-- Labour brings a worker closer to the end of its task, unless the invocation was stale. -/
theorem Labour.cost {name : String} (h : Labour s w name n f act a g b events) (hrun : s.FirstRun a)
    (hsignal : f.signal = {}) : b.cost + dues (jobsOf events) < a.cost := by
  have hstale {token : Token} (htoken : token = ⟨0⟩) (hgen : f.signal.generation ≠ token.started) : False :=
    hgen (by rw [hsignal, htoken])
  cases h with
  | ran hran =>
      cases hran with
      | retried _ _ hgen => exact (hstale hrun hgen).elim
      | _ => simp [SchedulerEvent.job?, WorkerPhase.cost, RunStep.panics]
  | _ => simp [SchedulerEvent.job?, WorkerPhase.cost, Posted.cost]

end Scheduler

/-! ## Submissions and idle workers -/

namespace Pool

variable {p q : Pool Nat WorkStage} {n w : Nat} {a b : WorkerPhase Nat WorkStage} {events : List (PoolEvent Nat)}

/-- The ways of the queued flights and of the workers. -/
def backlog (p : Pool Nat WorkStage) : Nat := 26 * p.queue.length + p.load WorkerPhase.cost

/-- How far the idle workers are from taking a task or from their rest. -/
def unrest (p : Pool Nat WorkStage) : Nat := p.load (WorkerPhase.unrest !p.queue.isEmpty)

theorem Admission.backlog (ha : Admission p n none q events) (hman : p.Manned) : q.backlog ≤ p.backlog + 26 := by
  cases ha with
  | stopped | full => omega
  | started =>
      have := load_launch WorkerPhase.cost p (some n)
      simp only [Pool.backlog, queue, Pool.launch, firstPhase, WorkerPhase.cost] at this ⊢
      omega
  | @handed _ worker rest _ _ _ hw =>
      obtain ⟨timed, hwait⟩ := hman.waiting worker (hw ▸ List.mem_cons_self)
      have := load_setPhase WorkerPhase.cost (.holding n) hman.distinct hwait
      simp only [Pool.backlog, queue, load, Pool.setPhase, WorkerPhase.cost] at this ⊢
      omega
  | queued => simp only [Pool.backlog, queue, Pool.enqueue, load, List.length_append, List.length_singleton]; omega
  | rescued =>
      have := load_launch WorkerPhase.cost (p.enqueue n) none
      simp only [Pool.backlog, queue, Pool.launch, Pool.enqueue, load, firstPhase, WorkerPhase.cost, List.length_append,
        List.length_singleton] at this ⊢
      omega

/-- A step of a worker outside of its task brings it closer to the end of the task, or to its rest. -/
theorem Move.closer {step : WorkerAct WorkStage} (hm : Move p (.work w step) q events) (hman : p.Manned)
    (hroutine : step.isRoutine = true) :
    q.backlog < p.backlog ∨ q.backlog = p.backlog ∧ q.unrest < p.unrest := by
  -- the queue stays as it is, and the worker goes on from `a` to `b`
  have hgo {r : Pool Nat WorkStage} {a b : WorkerPhase Nat WorkStage} (hw : p.phase? w = some a) (hr : r.workers = p.workers)
      (hq : r.queue = p.queue)
      (hcost : b.cost < a.cost ∨ b.cost = a.cost ∧ b.unrest (!p.queue.isEmpty) < a.unrest (!p.queue.isEmpty)) :
      (r.setPhase w b).backlog < p.backlog ∨
        (r.setPhase w b).backlog = p.backlog ∧ (r.setPhase w b).unrest < p.unrest := by
    have hload (cost : WorkerPhase Nat WorkStage → Nat) : (r.setPhase w b).load cost + cost a = p.load cost + cost b := by
      have hset : (r.setPhase w b).workers = (p.setPhase w b).workers := by simp only [Pool.setPhase, hr]
      have := load_setPhase cost b hman.distinct hw
      simpa only [load, hset] using this
    have hc := hload WorkerPhase.cost
    have hu := hload (WorkerPhase.unrest !p.queue.isEmpty)
    have hq' : (r.setPhase w b).queue = p.queue := hq
    simp only [Pool.backlog, Pool.unrest, hq']
    omega
  cases hm with
  | dismissed hw => exact hgo hw rfl rfl (.inr ⟨rfl, by simp [WorkerPhase.unrest]⟩)
  | sought hw => exact hgo hw rfl rfl (.inr ⟨rfl, by simp [WorkerPhase.unrest]⟩)
  | @took w timed task rest hw hq =>
      have := load_setPhase WorkerPhase.cost (.holding task) hman.distinct hw
      simp only [Pool.backlog, queue, load, Pool.setPhase, WorkerPhase.cost] at this hq ⊢
      rw [hq, List.length_cons]
      omega
  | waits hw hq => exact hgo hw rfl rfl (.inr ⟨rfl, by simp [WorkerPhase.unrest, hq]⟩)
  | cutOff hw =>
      rcases hw with ⟨hw, -⟩ | hw
      · exact hgo hw rfl rfl (.inr ⟨rfl, by simp [WorkerPhase.unrest]⟩)
      · exact hgo hw rfl rfl (.inr ⟨rfl, by simp only [WorkerPhase.unrest]; split <;> omega⟩)
  | expired hw => exact hgo hw rfl rfl (.inr ⟨rfl, by simp only [WorkerPhase.unrest]; split <;> omega⟩)
  | retired hw => exact hgo hw rfl rfl (.inr ⟨rfl, by simp only [WorkerPhase.unrest]; split <;> omega⟩)
  | stayed hw _ hq => exact hgo hw rfl rfl (.inr ⟨rfl, by simp [WorkerPhase.unrest, hq]⟩)
  | left hw => exact hgo hw rfl rfl (.inr ⟨rfl, by simp [WorkerPhase.unrest]⟩)
  | recorded hw | heeded hw | released hw => exact hgo hw rfl rfl (.inl (by simp [WorkerPhase.cost]))
  | entered | barred | advanced | hooked | finished | completed => cases hroutine

end Pool

end SingleFlight
