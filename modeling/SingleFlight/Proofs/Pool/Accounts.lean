import SingleFlight.Proofs.Pool.Runs

/-!
# Where the tasks of a pool are

An accepted task is in the queue, in the hands of one worker, finished, or given back by the stop. The account of a
task balances these places with the submissions that were accepted, and it balances the executions that were begun
with those that are under way or at an end.
-/

namespace SingleFlight

variable {τ σ : Type}

@[simp] def WorkerPhase.inHand? : WorkerPhase τ σ → Option τ
  | holding task => some task
  | recorded task => some task
  | ready task => some task
  | working task _ => some task
  | worked task _ _ => some task
  | _ => none

/-- The task that a worker executes, from the hook before the task to the hook after it. -/
@[simp] def WorkerPhase.executing? : WorkerPhase τ σ → Option τ
  | working task _ => some task
  | worked task _ _ => some task
  | _ => none

section
variable [DecidableEq τ]

@[simp] def PoolEvent.accepts (t : τ) : PoolEvent τ → Bool
  | accepted task => task = t
  | _ => false

@[simp] def PoolEvent.begins (t : τ) : PoolEvent τ → Bool
  | before _ task => task = t
  | _ => false

@[simp] def PoolEvent.runs (t : τ) : PoolEvent τ → Bool
  | ran _ task => task = t
  | _ => false

@[simp] def PoolEvent.ends (t : τ) : PoolEvent τ → Bool
  | after _ task _ => task = t
  | _ => false

end

@[simp] def PoolEvent.report? : PoolEvent τ → Option (List τ)
  | stopped undone _ => some undone
  | _ => none

/-- The step is no submission for which a thread cannot be created. -/
def PoolAct.isStaffed : PoolAct τ σ → Bool
  | submit _ (some _) => false
  | _ => true

/-- The step is a submission of the task. -/
def PoolAct.submits [DecidableEq τ] (t : τ) : PoolAct τ σ → Bool
  | submit task _ => task = t
  | _ => false

namespace Pool

variable {p q r : Pool τ σ} {act : PoolAct τ σ} {events : List (PoolEvent τ)} {w : Nat} {a b : WorkerPhase τ σ}
  {history later : List (Moment τ σ)} {t : τ}

/-- The tasks that the stop took from the queue. -/
def undone (p : Pool τ σ) : List τ :=
  match p.stop with
  | some (.interrupting undone _) => undone
  | some (.awaiting undone) => undone
  | some (.reported undone _) => undone
  | _ => []

def reports (p : Pool τ σ) : List (List τ) :=
  match p.stop with
  | some (.reported undone _) => [undone]
  | _ => []

def happened (history : List (Moment τ σ)) : List (PoolEvent τ) := history.flatMap Moment.events

def reported (history : List (Moment τ σ)) : List (List τ) := (happened history).filterMap PoolEvent.report?

section
variable [DecidableEq τ]

def held (p : Pool τ σ) (t : τ) : Nat := p.tally fun a => a.inHand? = some t

def executing (p : Pool τ σ) (t : τ) : Nat := p.tally fun a => a.executing? = some t

def accepted (t : τ) (history : List (Moment τ σ)) : Nat := (happened history).countP (PoolEvent.accepts t)

/-- How many executions of the task were begun. -/
def begun (t : τ) (history : List (Moment τ σ)) : Nat := (happened history).countP (PoolEvent.begins t)

/-- How often the task itself was called. -/
def called (t : τ) (history : List (Moment τ σ)) : Nat := (happened history).countP (PoolEvent.runs t)

/-- How many executions of the task came to their ends. -/
def finished (t : τ) (history : List (Moment τ σ)) : Nat := (happened history).countP (PoolEvent.ends t)

/-- The hook before the task panics in this step. -/
def Moment.bars (t : τ) (moment : Moment τ σ) : Bool :=
  match moment.act with
  | .work _ (.enter _ (some _)) => moment.events.any (PoolEvent.begins t)
  | _ => false

/-- How often the hook before the task panicked. -/
def barred (t : τ) (history : List (Moment τ σ)) : Nat := history.countP (Moment.bars t)

end

/-- Threads could be created at any time. -/
def Staffed (history : List (Moment τ σ)) : Prop := ∀ moment ∈ history, moment.act.isStaffed = true

/-! ## What one step does to the account -/

section
variable [DecidableEq τ]

theorem held_setPhase (hman : p.Manned) (hw : p.phase? w = some a) (t : τ) :
    (p.setPhase w b).held t + (decide (a.inHand? = some t)).toNat
      = p.held t + (decide (b.inHand? = some t)).toNat :=
  tally_setPhase (P := fun a => decide (a.inHand? = some t)) hman.distinct hw

theorem held_launch (p : Pool τ σ) (first : Option τ) (t : τ) :
    (p.launch first).held t = p.held t + (decide (first = some t)).toNat := by
  have hfirst : (firstPhase first : WorkerPhase τ σ).inHand? = first := by cases first <;> rfl
  have := tally_launch (P := fun a => decide (a.inHand? = some t)) p first
  rw [hfirst] at this
  exact this

/-- A submission adds the task that it accepts to the queue or to the hands of a worker, and no other one. -/
theorem Admission.balance {task : τ} {refusal : Option IoError} (ha : Admission p task refusal q events) (hman : p.Manned)
    (t : τ) (hkept : refusal = none ∨ task ≠ t) :
    q.queue.count t + q.held t = p.queue.count t + p.held t + events.countP (PoolEvent.accepts t) := by
  cases ha with
  | stopped | unstaffed | full => simp
  | started =>
      have hqueue : (p.launch (some task)).queue = p.queue := rfl
      rw [hqueue, held_launch]
      by_cases e : task = t <;> simp [e] <;> omega
  | @handed _ worker rest _ _ _ hw =>
      obtain ⟨timed, ht⟩ := hman.waiting worker (by rw [hw]; exact List.mem_cons_self)
      have := held_setPhase (b := .holding task) hman ht t
      show p.queue.count t + (p.setPhase worker (.holding task)).held t = _
      by_cases e : task = t <;> simp [e] at this ⊢ <;> omega
  | queued =>
      show (p.queue ++ [task]).count t + p.held t = _
      by_cases e : task = t <;> simp [e] <;> omega
  | rescued =>
      have hqueue : ((p.enqueue task).launch none).queue = p.queue ++ [task] := rfl
      have hheld : (p.enqueue task).held t = p.held t := rfl
      rw [hqueue, held_launch, hheld]
      by_cases e : task = t <;> simp [e] <;> omega
  | stranded =>
      have hother : task ≠ t := hkept.resolve_left (by simp)
      show (p.queue ++ [task]).count t + p.held t = _
      simp [hother]

theorem Admission.plain {task : τ} {refusal : Option IoError} (ha : Admission p task refusal q events) (t : τ) :
    events.countP (PoolEvent.begins t) = 0 ∧ events.countP (PoolEvent.runs t) = 0 ∧
      events.countP (PoolEvent.ends t) = 0 ∧ events.filterMap PoolEvent.report? = [] := by
  cases ha <;> simp

/-- A move takes a task from one place to another, or finishes it, unless the task is submitted and no thread can be
created for it. -/
theorem Move.balance (hm : Move p act q events) (hman : p.Manned) (t : τ)
    (hact : act.isStaffed = true ∨ act.submits t = false) :
    q.queue.count t + q.held t + q.undone.count t + events.countP (PoolEvent.ends t)
      = p.queue.count t + p.held t + p.undone.count t + events.countP (PoolEvent.accepts t) := by
  have hkept {u : Pool τ σ} {l : List (PoolEvent τ)} (hqueue : u.queue = p.queue) (hheld : u.held t = p.held t)
      (hundone : u.undone = p.undone) (hends : l.countP (PoolEvent.ends t) = 0)
      (haccepts : l.countP (PoolEvent.accepts t) = 0) :
      u.queue.count t + u.held t + u.undone.count t + l.countP (PoolEvent.ends t)
        = p.queue.count t + p.held t + p.undone.count t + l.countP (PoolEvent.accepts t) := by
    rw [hqueue, hheld, hundone, hends, haccepts]
  have hsame {w : Nat} {a b : WorkerPhase τ σ} (hw : p.phase? w = some a) (hab : a.inHand? = b.inHand?) :
      (p.setPhase w b).held t = p.held t :=
    tally_setPhase_same hman hw (by rw [hab])
  cases hm with
  | @submitted task refusal _ _ ha =>
      have hkept : refusal = none ∨ task ≠ t := by
        cases refusal <;> simp_all [PoolAct.isStaffed, PoolAct.submits]
      have := ha.balance hman t hkept
      have hundone : q.undone = p.undone := by simp [undone, ha.stop]
      rw [hundone, (ha.plain t).2.2.1]
      omega
  | dismissed hw | left hw => exact hkept rfl (hsame (b := .retired) hw rfl) rfl (by simp) (by simp)
  | retired hw => exact hkept rfl (hsame (b := .retired) hw rfl) rfl (by simp) (by simp)
  | sought hw | waits hw | expired hw | stayed hw | recorded hw | released hw | advanced hw | hooked hw =>
      exact hkept rfl (hsame hw rfl) rfl rfl rfl
  | cutOff hw => rcases hw with ⟨hw, -⟩ | hw <;> exact hkept rfl (hsame hw rfl) rfl rfl rfl
  | heeded hw => exact hkept rfl (hsame hw rfl) rfl (by split <;> simp) (by split <;> simp)
  | entered hw | barred hw => exact hkept rfl (hsame hw rfl) rfl (by simp) (by simp)
  | finished hw =>
      refine hkept rfl (hsame hw rfl) rfl ?_ ?_ <;> (unfold panicEvents; split <;> simp)
  | @took w timed task rest hw hq =>
      have := held_setPhase (b := .holding task) hman hw t
      show rest.count t + (p.setPhase w (.holding task)).held t + p.undone.count t + 0 = _
      rw [hq]
      by_cases e : task = t <;> simp [e] at this ⊢ <;> omega
  | @completed w task panic stage hookPanic hw =>
      have := held_setPhase (b := .leaving task) hman hw t
      show p.queue.count t + (p.setPhase w (.leaving task)).held t + p.undone.count t + _ = _
      by_cases e : task = t <;> cases hookPanic <;> simp [e] at this ⊢ <;> omega
  | halted hs => exact hkept rfl rfl (by simp [undone, hs]) rfl rfl
  | drained hs =>
      have hundone : p.undone = [] := by simp [undone, hs]
      show 0 + p.held t + p.queue.count t + 0 = _
      simp [hundone]; omega
  | interrupted hs | awaits hs | abandoned hs => exact hkept rfl rfl (by simp [undone, hs]) (by simp) (by simp)
  | reported hs => rcases hs with hs | hs <;> exact hkept rfl rfl (by simp [undone, hs]) (by simp) (by simp)
  | rechecked => exact hkept rfl rfl rfl (by simp) (by simp)

theorem executing_setPhase (hman : p.Manned) (hw : p.phase? w = some a) (t : τ) :
    (p.setPhase w b).executing t + (decide (a.executing? = some t)).toNat
      = p.executing t + (decide (b.executing? = some t)).toNat :=
  tally_setPhase (P := fun a => decide (a.executing? = some t)) hman.distinct hw

/-- Executions are begun and come to their ends one by one. -/
theorem Move.executions (hm : Move p act q events) (hman : p.Manned) (t : τ) :
    q.executing t + events.countP (PoolEvent.ends t) = p.executing t + events.countP (PoolEvent.begins t) := by
  have hkept {u : Pool τ σ} {l : List (PoolEvent τ)} (hexec : u.executing t = p.executing t)
      (hends : l.countP (PoolEvent.ends t) = 0) (hbegins : l.countP (PoolEvent.begins t) = 0) :
      u.executing t + l.countP (PoolEvent.ends t) = p.executing t + l.countP (PoolEvent.begins t) := by
    rw [hexec, hends, hbegins]
  have hsame {w : Nat} {a b : WorkerPhase τ σ} (hw : p.phase? w = some a) (hab : a.executing? = b.executing?) :
      (p.setPhase w b).executing t = p.executing t :=
    tally_setPhase_same hman hw (by rw [hab])
  cases hm with
  | submitted ha =>
      have := (ha.undisturbed hman).tally (P := fun a => decide (a.executing? = some t)) fun a h => by
        cases a <;> first | rfl | cases h
      exact hkept this (ha.plain t).2.2.1 (ha.plain t).1
  | dismissed hw | left hw => exact hkept (hsame (b := .retired) hw rfl) (by simp) (by simp)
  | retired hw => exact hkept (hsame (b := .retired) hw rfl) (by simp) (by simp)
  | sought hw | waits hw | expired hw | stayed hw | recorded hw | released hw | advanced hw | hooked hw =>
      exact hkept (hsame hw rfl) rfl rfl
  | took hw => exact hkept (hsame hw rfl) rfl rfl
  | cutOff hw => rcases hw with ⟨hw, -⟩ | hw <;> exact hkept (hsame hw rfl) rfl rfl
  | heeded hw => exact hkept (hsame hw rfl) (by split <;> simp) (by split <;> simp)
  | finished hw => refine hkept (hsame hw rfl) ?_ ?_ <;> (unfold panicEvents; split <;> simp)
  | @entered w task stage hw =>
      have := executing_setPhase (b := .working task stage) hman hw t
      by_cases e : task = t <;> simp [e] at this ⊢ <;> omega
  | @barred w task stage message hw =>
      have := executing_setPhase (b := .worked task (some message) stage) hman hw t
      by_cases e : task = t <;> simp [e] at this ⊢ <;> omega
  | @completed w task panic stage hookPanic hw =>
      have := executing_setPhase (b := .leaving task) hman hw t
      by_cases e : task = t <;> cases hookPanic <;> simp [e] at this ⊢ <;> omega
  | halted | drained | interrupted | reported | awaits | abandoned | rechecked => exact hkept rfl (by simp) (by simp)

/-- Once an execution is begun the task is called, unless the hook before it panics. -/
theorem Move.calls (hm : Move p act q events) (t : τ) :
    events.countP (PoolEvent.begins t)
      = events.countP (PoolEvent.runs t) + ((⟨act, events⟩ : Moment τ σ).bars t).toNat := by
  cases hm with
  | submitted ha => rw [(ha.plain t).1, (ha.plain t).2.1]; rfl
  | heeded => simp only [Moment.bars]; split <;> simp
  | @entered w task => simp only [Moment.bars]; by_cases e : task = t <;> simp [e]
  | @barred w task => simp only [Moment.bars]; by_cases e : task = t <;> simp [e]
  | finished => simp only [Moment.bars, panicEvents]; split <;> simp
  | @completed w task panic stage hookPanic => simp only [Moment.bars]; cases hookPanic <;> simp
  | _ => simp [Moment.bars]

end

/-- At most one report takes tasks from the queue, and it gives all of them back. -/
theorem Move.reports (hm : Move p act q events) : events.filterMap PoolEvent.report? ++ p.reports = q.reports := by
  have hquiet {u : Pool τ σ} {l : List (PoolEvent τ)} (hs : u.stop = p.stop) (hnone : l.filterMap PoolEvent.report? = []) :
      l.filterMap PoolEvent.report? ++ p.reports = u.reports := by
    rw [hnone, List.nil_append, Pool.reports, Pool.reports, hs]
  cases hm with
  | submitted ha => exact hquiet ha.stop (by cases ha <;> rfl)
  | heeded => exact hquiet rfl (by split <;> rfl)
  | finished => exact hquiet rfl (by unfold panicEvents; split <;> rfl)
  | @completed w task panic stage hookPanic => exact hquiet rfl (by cases hookPanic <;> rfl)
  | halted hs | drained hs | interrupted hs | awaits hs | abandoned hs => simp [Pool.reports, hs]
  | reported hs => rcases hs with hs | hs <;> simp [Pool.reports, hs]
  | _ => exact hquiet rfl rfl

end Pool

end SingleFlight
