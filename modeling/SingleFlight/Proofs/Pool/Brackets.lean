import SingleFlight.Failure
import SingleFlight.Proofs.Pool.Bookkeeping

/-!
# Hooks around tasks

A worker calls the hook before a task, the task and the hook after it in this order, and the hook after the task is called
whatever panics. None of this concerns the loop around it: the entry of the worker is struck off and it looks for the next
task. What a worker logs is therefore cut into executions, one for each task that it takes.
-/

namespace SingleFlight

variable {τ σ : Type}

/-- An execution of a task: whether the hook before the task, the task and the hook after it panic. If the first hook does,
the task is not called. -/
structure Execution (τ : Type) where
  task : τ
  before : Option PanicValue
  run : Option PanicValue
  after : Option PanicValue

/-- The end of a call to a hook or to a task, with the text of its panic. -/
inductive Ending
  | before (panic : Option String)
  | run (panic : Option String)
  | after (panic : Option String)
deriving DecidableEq, Repr

namespace Execution

def text (panic : Option PanicValue) : Option String := panic.map PanicValue.message

/-- What the hook after the task is told. -/
def report (x : Execution τ) : Option String := text (x.before <|> x.run)

def endings (x : Execution τ) : List Ending :=
  .before (text x.before) :: (if x.before.isSome then [] else [.run (text x.run)]) ++ [.after (text x.after)]

def events (w : Nat) (x : Execution τ) : List (PoolEvent τ) :=
  .before w x.task :: (if x.before.isSome then [] else [.ran w x.task]) ++ Pool.panicEvents w x.task x.report ++
    .after w x.task x.report :: (text x.after).toList.map (.hookPanicked w)

/-- The steps of a worker that takes them all with the same stage. -/
def acts (stage : σ) (x : Execution τ) : List (WorkerAct σ) :=
  [.record, .heed, .enter stage (text x.before)] ++ (if x.before.isSome then [] else [.finish stage (text x.run)]) ++
    [.complete (text x.after), .release]

end Execution

def WorkerAct.ending? : WorkerAct σ → Option Ending
  | enter _ panic => some (.before panic)
  | finish _ panic => some (.run panic)
  | complete panic => some (.after panic)
  | _ => none

def WorkerPhase.given? : WorkerPhase τ σ → Option τ
  | holding task => some task
  | _ => none

/-- The event is about a call of the worker to a hook or to a task. -/
def PoolEvent.concerns (w : Nat) : PoolEvent τ → Bool
  | before v _ => v = w
  | ran v _ => v = w
  | panicked v _ _ => v = w
  | after v _ _ => v = w
  | hookPanicked v _ => v = w
  | _ => false

namespace Pool

def Moment.ending? (w : Nat) (moment : Moment τ σ) : Option Ending :=
  match moment.act with
  | .work v step => if v = w then step.ending? else none
  | _ => none

/-- How the calls of a worker ended, oldest first. -/
def endings (w : Nat) (history : List (Moment τ σ)) : List Ending := history.reverse.filterMap (Moment.ending? w)

/-- What a worker called and what panicked there, oldest first. -/
def diary (w : Nat) (history : List (Moment τ σ)) : List (PoolEvent τ) := (chronicle history).filter (PoolEvent.concerns w)

/-- The task that a worker takes between two phases. -/
def taken? (a b : Option (WorkerPhase τ σ)) : Option τ :=
  if (a.bind WorkerPhase.given?).isSome then none else b.bind WorkerPhase.given?

/-- `Takings w history p tasks`: a new pool comes to `p` by the steps of the history, in which the worker takes the tasks. -/
inductive Takings (w : Nat) : List (Moment τ σ) → Pool τ σ → List τ → Prop
  | create {name settings} : settings.validate = .ok () → Takings w [] (.create name settings) []
  | step {history p act q events tasks} : Takings w history p tasks → p.step act = some (q, events) →
      Takings w ({ act, events } :: history) q (tasks ++ (taken? (p.phase? w) (q.phase? w)).toList)

/-- What a step means to a worker: its phases before and after it, the end of a call, and what is noted. -/
inductive Shift (w : Nat) : Option (WorkerPhase τ σ) → Option (WorkerPhase τ σ) → Option Ending →
    List (PoolEvent τ) → Prop
  | same {a} : Shift w a a none []
  | idles {a b} : a.bind WorkerPhase.task? = none → b.bind WorkerPhase.task? = none → Shift w a b none []
  | takes {a task} : a.bind WorkerPhase.task? = none → Shift w a (some (.holding task)) none []
  | recorded {task} : Shift w (some (.holding task)) (some (.recorded task)) none []
  | heeded {task} : Shift w (some (.recorded task)) (some (.ready task)) none []
  | entered {task stage} :
      Shift w (some (.ready task)) (some (.working task stage)) (some (.before none)) [.before w task, .ran w task]
  | barred {task stage message} :
      Shift w (some (.ready task)) (some (.worked task (some message) stage)) (some (.before (some message)))
        [.before w task, .panicked w task message]
  | advanced {task stage stage'} : Shift w (some (.working task stage)) (some (.working task stage')) none []
  | finished {task stage panic stage'} :
      Shift w (some (.working task stage)) (some (.worked task panic stage')) (some (.run panic)) (panicEvents w task panic)
  | hooked {task panic stage stage'} :
      Shift w (some (.worked task panic stage)) (some (.worked task panic stage')) none []
  | completed {task panic stage hookPanic} :
      Shift w (some (.worked task panic stage)) (some (.leaving task)) (some (.after hookPanic))
        (.after w task panic :: hookPanic.toList.map (.hookPanicked w))
  | released {task} : Shift w (some (.leaving task)) (some .seeking) none []

/-- How far a worker is with the task in its hands: the task, the ends of calls and what is noted of its execution. -/
inductive Underway (w : Nat) : Option (WorkerPhase τ σ) → List τ → List Ending → List (PoolEvent τ) → Prop
  | off {a} : a.bind WorkerPhase.inHand? = none → Underway w a [] [] []
  | held {c task} : c.held? = some task → Underway w (some c) [task] [] []
  | working {task stage} : Underway w (some (.working task stage)) [task] [.before none] [.before w task, .ran w task]
  | barred {task message stage} :
      Underway w (some (.worked task (some message) stage)) [task] [.before (some message)]
        [.before w task, .panicked w task message]
  | worked {task panic stage} :
      Underway w (some (.worked task panic stage)) [task] [.before none, .run panic]
        (.before w task :: .ran w task :: panicEvents w task panic)

variable {p q r : Pool τ σ} {act : PoolAct τ σ} {step : WorkerAct σ} {events l log : List (PoolEvent τ)} {w v : Nat}
  {a b : Option (WorkerPhase τ σ)} {c d : WorkerPhase τ σ} {task : τ} {tasks hand : List τ} {ending : Option Ending}
  {os : List Ending} {history later : List (Moment τ σ)}

theorem Takings.reachable (h : Takings w history p tasks) : Reachable history p := by
  induction h with
  | create hvalid => exact .create _ hvalid
  | step _ hs ih => exact ih.step hs

theorem Reachable.takings (h : Reachable history p) (w : Nat) : ∃ tasks, Takings w history p tasks := by
  obtain ⟨name, settings, hvalid, hrun⟩ := h
  induction hrun with
  | start => exact ⟨[], .create hvalid⟩
  | step _ hs ih =>
      obtain ⟨tasks, h⟩ := ih
      exact ⟨_, h.step hs⟩

theorem endings_cons (moment : Moment τ σ) (history : List (Moment τ σ)) :
    endings w (moment :: history) = endings w history ++ (moment.ending? w).toList := by
  cases h : moment.ending? w <;> simp [endings, h]

theorem endings_append (later history : List (Moment τ σ)) :
    endings w (later ++ history) = endings w history ++ endings w later := by
  simp [endings]

theorem diary_cons (moment : Moment τ σ) (history : List (Moment τ σ)) :
    diary w (moment :: history) = diary w history ++ moment.events.filter (PoolEvent.concerns w) := by
  simp [diary, chronicle_cons]

theorem diary_append (later history : List (Moment τ σ)) : diary w (later ++ history) = diary w history ++ diary w later := by
  simp [diary, chronicle]

/-! ## A step as one worker sees it -/

theorem filter_panicEvents (panic : Option String) :
    (panicEvents v task panic).filter (PoolEvent.concerns w) = if v = w then panicEvents v task panic else [] := by
  cases panic <;> by_cases e : v = w <;> simp [panicEvents, PoolEvent.concerns, e]

theorem filter_hookPanicked (panic : Option String) :
    (panic.toList.map (PoolEvent.hookPanicked (τ := τ) v)).filter (PoolEvent.concerns w)
      = if v = w then panic.toList.map (.hookPanicked v) else [] := by
  cases panic <;> by_cases e : v = w <;> simp [PoolEvent.concerns, e]

/-- The step of one worker means nothing to another one. -/
theorem Shift.moved (hw : p.phase? v = some c) (hq : q.workers = (p.setPhase v d).workers)
    (hother : v ≠ w → ending = none ∧ l = []) (h : v = w → Shift w (some c) (some d) ending l) :
    Shift w (p.phase? w) (q.phase? w) ending l := by
  have hphase : q.phase? w = (p.setPhase v d).phase? w := by rw [phase?, hq, phase?]
  rw [hphase]
  by_cases e : v = w
  · subst e
    rw [hw, phase?_setPhase_self hw]
    exact h rfl
  · obtain ⟨rfl, rfl⟩ := hother e
    rw [phase?_setPhase_ne (Ne.symm e)]
    exact .same

theorem Shift.own (hw : p.phase? v = some c) (hq : q.workers = (p.setPhase v d).workers)
    (hother : v ≠ w → events.filter (PoolEvent.concerns w) = [])
    (h : v = w → Shift w (some c) (some d) step.ending? (events.filter (PoolEvent.concerns w))) :
    Shift w (p.phase? w) (q.phase? w) (Moment.ending? w ⟨.work v step, events⟩) (events.filter (PoolEvent.concerns w)) := by
  refine .moved hw hq (fun e => ⟨if_neg e, hother e⟩) fun e => ?_
  have hending : Moment.ending? w ⟨.work v step, events⟩ = step.ending? := if_pos e
  rw [hending]
  exact h e

theorem Shift.launch (p : Pool τ σ) (first : Option τ) : Shift w (p.phase? w) ((p.launch first).phase? w) none [] := by
  rw [phase?_launch]
  cases hw : p.phase? w with
  | some c => exact .same
  | none =>
      by_cases e : w = p.nextWorker
      · rw [if_pos e]
        cases first with
        | none => exact .idles rfl rfl
        | some task => exact .takes rfl
      · rw [if_neg e]
        exact .same

theorem Admission.shift {refusal : Option IoError} (ha : Admission p task refusal q events) (hman : p.Manned) :
    Shift w (p.phase? w) (q.phase? w) none (events.filter (PoolEvent.concerns w)) := by
  cases ha with
  | stopped | unstaffed | full | queued | stranded => exact .same
  | started => exact .launch p _
  | rescued => exact .launch (p.enqueue task) none
  | @handed _ worker rest _ _ _ hw =>
      obtain ⟨timed, ht⟩ := hman.waiting worker (by rw [hw]; exact List.mem_cons_self)
      exact .moved (d := .holding task) ht rfl (fun _ => ⟨rfl, rfl⟩) fun _ => .takes rfl

theorem Move.shift (hm : Move p act q events) (hman : p.Manned) (w : Nat) :
    Shift w (p.phase? w) (q.phase? w) (Moment.ending? w ⟨act, events⟩) (events.filter (PoolEvent.concerns w)) := by
  have hidle {v : Nat} {step : WorkerAct σ} {u : Pool τ σ} {c d : WorkerPhase τ σ} (hw : p.phase? v = some c)
      (hc : c.task? = none) (hd : d.task? = none) (hstep : step.ending? = none)
      (hu : u.workers = (p.setPhase v d).workers) {l : List (PoolEvent τ)} (hl : l.filter (PoolEvent.concerns w) = []) :
      Shift w (p.phase? w) (u.phase? w) (Moment.ending? w ⟨.work v step, l⟩) (l.filter (PoolEvent.concerns w)) :=
    .own hw hu (fun _ => hl) fun _ => by rw [hstep, hl]; exact .idles hc hd
  cases hm with
  | submitted ha => exact ha.shift hman
  | halted | drained | interrupted | reported | awaits | abandoned | rechecked => exact .same
  | dismissed hw | sought hw | waits hw | expired hw | stayed hw | retired hw | left hw =>
      exact hidle hw rfl rfl rfl rfl rfl
  | cutOff hw => rcases hw with ⟨hw, -⟩ | hw <;> exact hidle hw rfl rfl rfl rfl rfl
  | took hw => exact .own hw rfl (fun _ => rfl) fun _ => .takes rfl
  | recorded hw => exact .own hw rfl (fun _ => rfl) fun _ => .recorded
  | @heeded v task hw =>
      have hnone : (if p.isStopping then [PoolEvent.interrupted task] else []).filter (PoolEvent.concerns w) = [] := by
        split <;> rfl
      exact .own hw rfl (fun _ => hnone) fun _ => by rw [hnone]; exact .heeded
  | entered hw =>
      exact .own hw rfl (fun e => by simp [PoolEvent.concerns, e]) fun e => by
        subst e; simpa [PoolEvent.concerns] using .entered
  | barred hw =>
      exact .own hw rfl (fun e => by simp [PoolEvent.concerns, e]) fun e => by
        subst e; simpa [PoolEvent.concerns] using .barred
  | advanced hw => exact .own hw rfl (fun _ => rfl) fun _ => .advanced
  | hooked hw => exact .own hw rfl (fun _ => rfl) fun _ => .hooked
  | finished hw =>
      exact .own hw rfl (fun e => by rw [filter_panicEvents, if_neg e]) fun e => by
        rw [filter_panicEvents, if_pos e, e]; exact .finished
  | @completed v task panic stage hookPanic hw =>
      refine .own (d := .leaving task) hw rfl (fun e => ?_) fun e => ?_
      · rw [List.filter_cons, filter_hookPanicked, if_neg e]
        simp [PoolEvent.concerns, e]
      · subst e
        rw [List.filter_cons, filter_hookPanicked, if_pos rfl]
        simpa [PoolEvent.concerns] using .completed
  | released hw => exact .own hw rfl (fun _ => rfl) fun _ => .released

/-! ## Executions -/

theorem task?_of_held (h : c.held? = some task) : c.task? = some task := by
  cases c with
  | holding | recorded | ready => exact h
  | _ => cases h

theorem Underway.idle (h : Underway w a hand os log) (ha : a.bind WorkerPhase.task? = none) :
    hand = [] ∧ os = [] ∧ log = [] := by
  cases h with
  | off => exact ⟨rfl, rfl, rfl⟩
  | held hc => cases (task?_of_held hc).symm.trans ha
  | working | barred | worked => cases ha

theorem inHand?_of_idle (ha : a.bind WorkerPhase.task? = none) : a.bind WorkerPhase.inHand? = none := by
  cases a with
  | none => rfl
  | some c =>
      cases c with
      | holding | recorded | ready | working | worked | leaving => cases ha
      | _ => rfl

theorem taken?_of_idle (hb : b.bind WorkerPhase.task? = none) : taken? a b = none := by
  unfold taken?
  split
  · rfl
  · cases b with
    | none => rfl
    | some d =>
        cases d with
        | holding => cases hb
        | _ => rfl

theorem taken?_given (ha : a.bind WorkerPhase.task? = none) :
    taken? a (some (.holding task : WorkerPhase τ σ)) = some task := by
  cases a with
  | none => rfl
  | some c =>
      cases c with
      | holding => cases ha
      | _ => rfl

theorem taken?_self (a : Option (WorkerPhase τ σ)) : taken? a a = none := by
  cases h : a.bind WorkerPhase.given? <;> simp [taken?, h]

/-- A step goes on with the execution under way or brings it to its end, and then the worker has no task in hand. -/
theorem Shift.underway (hs : Shift w a b ending l) (h : Underway w a hand os log) :
    Underway w b (hand ++ (taken? a b).toList) (os ++ ending.toList) (log ++ l) ∨
      ∃ x : Execution τ, hand ++ (taken? a b).toList = [x.task] ∧ os ++ ending.toList = x.endings ∧ log ++ l = x.events w ∧
        Underway w b [] [] [] := by
  cases hs with
  | same =>
      left
      simpa [taken?_self] using h
  | idles ha hb =>
      obtain ⟨rfl, rfl, rfl⟩ := h.idle ha
      left
      rw [taken?_of_idle hb]
      exact .off (inHand?_of_idle hb)
  | takes ha =>
      obtain ⟨rfl, rfl, rfl⟩ := h.idle ha
      left
      rw [taken?_given ha]
      exact .held rfl
  | recorded | heeded =>
      cases h with
      | off hnone => cases hnone
      | held hc => cases hc; exact .inl (.held rfl)
  | entered =>
      cases h with
      | off hnone => cases hnone
      | held hc => cases hc; exact .inl .working
  | barred =>
      cases h with
      | off hnone => cases hnone
      | held hc => cases hc; exact .inl .barred
  | advanced =>
      cases h with
      | off hnone => cases hnone
      | held hc => cases hc
      | working => exact .inl .working
  | finished =>
      cases h with
      | off hnone => cases hnone
      | held hc => cases hc
      | working => exact .inl .worked
  | hooked =>
      cases h with
      | off hnone => cases hnone
      | held hc => cases hc
      | barred => exact .inl (by simpa [taken?, WorkerPhase.given?] using .barred)
      | worked => exact .inl (by simpa [taken?, WorkerPhase.given?] using .worked)
  | @completed task panic stage hookPanic =>
      right
      cases h with
      | off hnone => cases hnone
      | held hc => cases hc
      | @barred _ message =>
          refine ⟨⟨task, some (.text message), none, hookPanic.map .text⟩, rfl, ?_, ?_, .off rfl⟩ <;>
            cases hookPanic <;> rfl
      | worked =>
          refine ⟨⟨task, none, panic.map .text, hookPanic.map .text⟩, rfl, ?_, ?_, .off rfl⟩ <;>
            cases panic <;> cases hookPanic <;> rfl
  | released =>
      cases h with
      | off => exact .inl (.off rfl)
      | held hc => cases hc

/-- The tasks that a worker takes are executed one after the other, up to the one in its hands. -/
theorem Takings.executions [DecidableEq τ] (h : Takings w history p tasks) :
    ∃ (xs : List (Execution τ)) (hand : List τ) (os : List Ending) (l : List (PoolEvent τ)),
      Underway w (p.phase? w) hand os l ∧ tasks = xs.map Execution.task ++ hand ∧
      endings w history = xs.flatMap Execution.endings ++ os ∧ diary w history = xs.flatMap (Execution.events w) ++ l := by
  induction h with
  | create => exact ⟨[], [], [], [], .off rfl, rfl, rfl, rfl⟩
  | @step history p act q events tasks h hs ih =>
      obtain ⟨xs, hand, os, l, hunder, htasks, hendings, hdiary⟩ := ih
      have hshift := (step_move hs).shift h.reachable.manned w
      rw [endings_cons, diary_cons, htasks, hendings, hdiary, List.append_assoc, List.append_assoc, List.append_assoc]
      -- the step goes on with what is under way, or one more execution is complete
      rcases hshift.underway hunder with hunder | ⟨x, hhand, hos, hl, hunder⟩
      · exact ⟨xs, _, _, _, hunder, rfl, rfl, rfl⟩
      · rw [hhand, hos, hl]
        exact ⟨xs ++ [x], [], [], [], hunder, by simp, by simp, by simp⟩

/-! ## Workers go on -/

theorem strike_enlist (p : Pool τ σ) (task : τ) : (p.enlist w task).strike w = p.strike w := by
  simp [strike, enlist]

/-- A worker comes from `p` to `q` by its own steps; its calls in them end and are noted as given. -/
def Stretch (w : Nat) (p q : Pool τ σ) (steps : List (WorkerAct σ)) (os : List Ending) (log : List (PoolEvent τ)) : Prop :=
  ∃ later, Run p later q ∧ later.reverse.map Moment.act = steps.map (.work w) ∧ endings w later = os ∧ diary w later = log

theorem Stretch.one (hs : p.step (.work w step) = some (q, events)) (hlog : events.filter (PoolEvent.concerns w) = log) :
    Stretch w p q [step] step.ending?.toList log := by
  have hending : Moment.ending? w ⟨.work w step, events⟩ = step.ending? := if_pos rfl
  refine ⟨_, Run.start.step hs, rfl, ?_, ?_⟩
  · rw [endings_cons, hending]; rfl
  · rw [diary_cons, hlog]; rfl

theorem Stretch.trans {steps steps' : List (WorkerAct σ)} {os' : List Ending} {log' : List (PoolEvent τ)}
    (h : Stretch w p q steps os log) (k : Stretch w q r steps' os' log') :
    Stretch w p r (steps ++ steps') (os ++ os') (log ++ log') := by
  obtain ⟨later, hrun, hacts, rfl, rfl⟩ := h
  obtain ⟨later', hrun', hacts', rfl, rfl⟩ := k
  refine ⟨later' ++ later, hrun.trans hrun', ?_, endings_append .., diary_append ..⟩
  rw [List.reverse_append, List.map_append, List.map_append, hacts, hacts']

theorem enters_task (hw : p.phase? w = some (.holding task)) :
    Stretch w p ((p.enlist w task).setPhase w (.ready task)) [.record, .heed] [] [] := by
  let q := p.enlist w task
  have hq : q.phase? w = some (.holding task) := hw
  have hrecord : p.step (.work w .record) = some (q.setPhase w (.recorded task), []) := by
    simp only [Pool.step, work, hw]; rfl
  have hheed : (q.setPhase w (.recorded task)).step (.work w .heed)
      = some (q.setPhase w (.ready task), if q.isStopping then [.interrupted task] else []) := by
    simp only [Pool.step, work, phase?_setPhase_self hq, setPhase_setPhase]; rfl
  exact (Stretch.one hrecord rfl).trans (.one hheed (by split <;> rfl))

theorem calls_task (x : Execution τ) (stage : σ) (hw : p.phase? w = some (.ready x.task)) :
    Stretch w p (p.setPhase w (.worked x.task x.report stage))
      (.enter stage (Execution.text x.before) :: if x.before.isSome then [] else [.finish stage (Execution.text x.run)])
      (.before (Execution.text x.before) :: if x.before.isSome then [] else [.run (Execution.text x.run)])
      (.before w x.task :: (if x.before.isSome then [] else [.ran w x.task]) ++ panicEvents w x.task x.report) := by
  obtain ⟨task, before, run, after⟩ := x
  cases before with
  | some value =>
      have henter : p.step (.work w (.enter stage (some value.message)))
          = some (p.setPhase w (.worked task (some value.message) stage),
            [.before w task, .panicked w task value.message]) := by
        simp only [Pool.step, work, hw]
      exact .one henter (by simp [PoolEvent.concerns]; rfl)
  | none =>
      have henter : p.step (.work w (.enter stage none))
          = some (p.setPhase w (.working task stage), [.before w task, .ran w task]) := by
        simp only [Pool.step, work, hw]
      have hfinish : (p.setPhase w (.working task stage)).step (.work w (.finish stage (Execution.text run)))
          = some (p.setPhase w (.worked task (Execution.text run) stage), panicEvents w task (Execution.text run)) := by
        simp only [Pool.step, work, phase?_setPhase_self hw, setPhase_setPhase]
      have hcalled : [PoolEvent.before w task, .ran w task].filter (PoolEvent.concerns w) = [.before w task, .ran w task] := by
        simp [PoolEvent.concerns]
      exact (Stretch.one henter hcalled).trans (.one hfinish ((filter_panicEvents _).trans (if_pos rfl)))

theorem completes_task {panic : Option String} {stage : σ} (hookPanic : Option String)
    (hw : p.phase? w = some (.worked task panic stage)) :
    Stretch w p ((p.strike w).setPhase w .seeking) [.complete hookPanic, .release] [.after hookPanic]
      (.after w task panic :: hookPanic.toList.map (.hookPanicked w)) := by
  have hcomplete : p.step (.work w (.complete hookPanic))
      = some (p.setPhase w (.leaving task), .after w task panic :: hookPanic.toList.map (.hookPanicked w)) := by
    simp only [Pool.step, work, hw]
    cases hookPanic <;> rfl
  have hrelease : (p.setPhase w (.leaving task)).step (.work w .release) = some ((p.strike w).setPhase w .seeking, []) := by
    simp only [Pool.step, work, phase?_setPhase_self hw]
    exact congrArg (fun r => some (r, [])) (setPhase_setPhase (p.strike w))
  have hnoted : (.after w task panic :: hookPanic.toList.map (.hookPanicked w)).filter (PoolEvent.concerns w)
      = .after w task panic :: hookPanic.toList.map (.hookPanicked w) := by
    rw [List.filter_cons, filter_hookPanicked]
    simp [PoolEvent.concerns]
  have hreleased : Stretch w _ _ [.release] [] [] := .one hrelease rfl
  have h := (Stretch.one hcomplete hnoted).trans hreleased
  rw [List.append_nil, List.append_nil] at h
  exact h

/-- Whatever panics in it, a worker executes the task in its hands and looks for the next one; but for the entry that is
struck off nothing else has changed. -/
theorem executes (x : Execution τ) (stage : σ) (hw : p.phase? w = some (.holding x.task)) :
    Stretch w p ((p.strike w).setPhase w .seeking) (x.acts stage) x.endings (x.events w) := by
  let q := p.enlist w x.task
  have hready : (q.setPhase w (.ready x.task)).phase? w = some (.ready x.task) := phase?_setPhase_self (p := q) hw
  have hstruck : (((q.setPhase w (.ready x.task)).setPhase w (.worked x.task x.report stage)).strike w).setPhase w .seeking
      = (p.strike w).setPhase w .seeking :=
    calc _ = (((q.strike w).setPhase w (.ready x.task)).setPhase w (.worked x.task x.report stage)).setPhase w .seeking := rfl
      _ = (q.strike w).setPhase w .seeking := by rw [setPhase_setPhase, setPhase_setPhase]
      _ = (p.strike w).setPhase w .seeking := by rw [strike_enlist]
  have h := ((enters_task hw).trans (calls_task x stage hready)).trans
    (completes_task (Execution.text x.after) (phase?_setPhase_self hready))
  rw [hstruck] at h
  exact h

/-- A worker that looks for a task takes the first one of the queue. -/
theorem takes_next {rest : List τ} (hw : p.phase? w = some .seeking) (hgoing : p.isStopping = false)
    (hqueue : p.queue = task :: rest) :
    ∃ later q, Run p later q ∧ q.phase? w = some (.holding task) ∧ q.queue = rest ∧ q.live = p.live ∧
      q.isStopping = false ∧ endings w later = [] ∧ diary w later = [] := by
  let timed : Bool := p.settings.coreTimeout || p.settings.core < p.live
  have hseek : p.step (.work w .seek) = some (p.setPhase w (.listening timed), []) := by
    simp only [Pool.step, work, hw, hgoing]; rfl
  have hreceive : (p.setPhase w (.listening timed)).step (.work w .receive)
      = some (({ p with channel := { p.channel with buffer := rest } }).setPhase w (.holding task), []) := by
    have hbuffer : (p.setPhase w (.listening timed)).channel.buffer = task :: rest := hqueue
    simp only [Pool.step, work, phase?_setPhase_self hw, Channel.receive, hbuffer]
    exact congrArg (fun r => some (r, [])) (setPhase_setPhase ({ p with channel := { p.channel with buffer := rest } }))
  have hphase := phase?_setPhase_self (p := { p with channel := { p.channel with buffer := rest } }) (b := .holding task) hw
  refine ⟨_, _, (Run.start.step hseek).step hreceive, hphase, rfl, rfl, hgoing, ?_, ?_⟩
  · simp [endings, Moment.ending?, WorkerAct.ending?]
  · simp [diary, chronicle]

/-- A worker that looks for a task executes the queued ones one after the other, whatever panics. -/
theorem executes_queued (stage : σ) {rest : List τ} : ∀ (xs : List (Execution τ)) {p : Pool τ σ},
    p.phase? w = some .seeking → p.isStopping = false → p.queue = xs.map Execution.task ++ rest →
    ∃ later q, Run p later q ∧ q.phase? w = some .seeking ∧ q.queue = rest ∧ q.live = p.live ∧
      endings w later = xs.flatMap Execution.endings ∧ diary w later = xs.flatMap (Execution.events w)
  | [], p, hw, _, hqueue => ⟨[], p, .start, hw, hqueue, rfl, rfl, rfl⟩
  | x :: xs, p, hw, hgoing, hqueue => by
      obtain ⟨_, r, hrun₁, hr, hqueue, hlive₁, hgoing, hendings₁, hdiary₁⟩ := takes_next hw hgoing hqueue
      obtain ⟨_, hrun₂, -, hendings₂, hdiary₂⟩ := executes x stage hr
      obtain ⟨_, q, hrun₃, hq, hrest, hlive₂, hendings₃, hdiary₃⟩ := executes_queued stage xs
        (phase?_setPhase_self (p := r.strike w) hr) hgoing hqueue
      refine ⟨_, q, (hrun₁.trans hrun₂).trans hrun₃, hq, hrest, hlive₂.trans hlive₁, ?_, ?_⟩
      · rw [endings_append, endings_append, hendings₁, hendings₂, hendings₃]; rfl
      · rw [diary_append, diary_append, hdiary₁, hdiary₂, hdiary₃]; rfl

/-- A worker with a task does not leave. -/
theorem Move.live_kept (hm : Move p (.work w step) q events) (hw : p.phase? w = some c) (hc : c.task?.isSome = true) :
    q.live = p.live := by
  cases hm with
  | dismissed hw' | retired hw' | left hw' => cases hw'.symm.trans hw; cases hc
  | _ => rfl

/-- Nobody else moves a worker with a task. -/
theorem Move.phase_kept (hm : Move p act q events) (hman : p.Manned) (hw : p.phase? w = some c) (hc : c.task?.isSome = true)
    (hact : ∀ step, act ≠ .work w step) : q.phase? w = some c := by
  have hother {v : Nat} {u : Pool τ σ} {d : WorkerPhase τ σ} (hv : v ≠ w) (hu : u.workers = (p.setPhase v d).workers) :
      u.phase? w = some c := by
    rw [phase?, hu, ← phase?, phase?_setPhase_ne (Ne.symm hv), hw]
  have hlaunch {p : Pool τ σ} (first : Option τ) (hw : p.phase? w = some c) : (p.launch first).phase? w = some c := by
    rw [phase?_launch, hw]; rfl
  cases act with
  | work v step =>
      have hv : v ≠ w := fun e => hact step (by rw [e])
      cases hm with
      | completed => exact hother (d := .leaving _) hv rfl
      | _ => exact hother hv rfl
  | stop => cases hm <;> exact hw
  | submit =>
      cases hm with
      | submitted ha =>
          cases ha with
          | stopped | unstaffed | full | queued | stranded => exact hw
          | started => exact hlaunch _ hw
          | rescued => exact hlaunch (p := p.enqueue _) none hw
          | @handed _ worker rest _ _ _ hwaiting =>
              obtain ⟨timed, ht⟩ := hman.waiting worker (by rw [hwaiting]; exact List.mem_cons_self)
              refine hother (d := .holding _) (fun e => ?_) rfl
              subst e
              cases ht.symm.trans hw
              cases hc

/-- Along any run, the calls that a worker makes are those of the executions of the tasks that it takes, one after the
other, up to the execution under way. It has an entry among the running tasks from the time when it enters its task until
it is done with it. While it has a task it does not leave, and nobody else moves it. Whatever panics, it gets to the end of
the execution and looks for the next task, and it executes those that are queued. -/
theorem executions_bracketed [DecidableEq τ] (h : Takings w history p tasks) :
    (∃ (xs : List (Execution τ)) (hand : List τ) (os : List Ending) (l : List (PoolEvent τ)),
      Underway w (p.phase? w) hand os l ∧ tasks = xs.map Execution.task ++ hand ∧
      endings w history = xs.flatMap Execution.endings ++ os ∧ diary w history = xs.flatMap (Execution.events w) ++ l) ∧
    (∀ t, (w, t) ∈ p.running ↔ p.entered? w = some t) ∧
    (∀ c act q events, p.phase? w = some c → c.task?.isSome = true → p.step act = some (q, events) →
      (∀ step, act = .work w step → q.live = p.live) ∧ ((∀ step, act ≠ .work w step) → q.phase? w = some c)) ∧
    ∀ (x : Execution τ) (stage : σ), p.phase? w = some (.holding x.task) →
      (∃ later, Run p later ((p.strike w).setPhase w .seeking) ∧
        later.reverse.map Moment.act = (x.acts stage).map (.work w) ∧ endings w later = x.endings ∧
        diary w later = x.events w) ∧
      ∀ (xs : List (Execution τ)) (rest : List τ), p.isStopping = false → p.queue = xs.map Execution.task ++ rest →
        ∃ later q, Run p later q ∧ q.phase? w = some .seeking ∧ q.queue = rest ∧ q.live = p.live ∧
          (∀ t, (w, t) ∉ q.running) ∧ endings w later = (x :: xs).flatMap Execution.endings ∧
          diary w later = (x :: xs).flatMap (Execution.events w) := by
  have hreach := h.reachable
  refine ⟨h.executions, hreach.enrolled.entry w, fun c act q events hw hc hs => ⟨?_, ?_⟩, fun x stage hw =>
    ⟨executes x stage hw, fun xs rest hgoing hqueue => ?_⟩⟩
  · rintro step rfl
    exact (step_move hs).live_kept hw hc
  · exact (step_move hs).phase_kept hreach.manned hw hc
  · obtain ⟨_, hrun₁, -, hendings₁, hdiary₁⟩ := executes x stage hw
    obtain ⟨_, q, hrun₂, hq, hrest, hlive, hendings₂, hdiary₂⟩ :=
      executes_queued stage xs (phase?_setPhase_self (p := p.strike w) hw) hgoing hqueue
    have hrun := hrun₁.trans hrun₂
    refine ⟨_, q, hrun, hq, hrest, hlive, fun t ht => ?_, ?_, ?_⟩
    · have hentered := ((hreach.run hrun).enrolled.entry w t).mp ht
      rw [entered?, hq] at hentered
      cases hentered
    · rw [endings_append, hendings₁, hendings₂]; rfl
    · rw [diary_append, hdiary₁, hdiary₂]; rfl

/-- The hooks around the first task panic, and the second task panics with a value that is no text. -/
theorem two_executions_bracketed : ∃ (p q : Pool Nat Unit) (history later : List (Moment Nat Unit)),
    Takings 1 history p [0] ∧ p.queue = [1] ∧ Run p later q ∧ q.phase? 1 = some .seeking ∧ q.live = p.live ∧
    diary 1 later =
      [ .before 1 0, .panicked 1 0 "closed", .after 1 0 (some "closed"), .hookPanicked 1 "lost",
        .before 1 1, .ran 1 1, .panicked 1 1 "Unknown panic", .after 1 1 (some "Unknown panic") ] := by
  have h₁ := (Takings.create rfl : Takings 1 [] (create "pool" .serial : Pool Nat Unit) []).step
    (show Pool.step _ (.submit 0 none) = some (_, _) from rfl)
  have h₂ := h₁.step (show Pool.step _ (.submit 1 none) = some (_, _) from rfl)
  obtain ⟨-, -, -, hon⟩ := executions_bracketed h₂
  obtain ⟨-, hall⟩ := hon ⟨0, some (.text "closed"), none, some (.text "lost")⟩ () rfl
  obtain ⟨later, q, hrun, hq, -, hlive, -, -, hdiary⟩ := hall [⟨1, none, some .other, none⟩] [] rfl rfl
  exact ⟨_, q, _, later, h₂, rfl, hrun, hq, hlive, hdiary⟩

end Pool

end SingleFlight
