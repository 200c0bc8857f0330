import SingleFlight.Proofs.Pool.Attendance
import SingleFlight.Proofs.Pool.Interruptions

/-!
# Pools with one worker

A pool that may have one worker at a time executes its tasks one after the other in the order in which they were accepted,
also where the worker leaves and another one is started. The tasks stand in line: in the hands of the worker, in the
queue, and after a stop among the undone ones.
-/

namespace SingleFlight

variable {τ σ : Type}

@[simp] def PoolEvent.accepted? : PoolEvent τ → Option τ
  | accepted task => some task
  | _ => none

@[simp] def PoolEvent.begun? : PoolEvent τ → Option τ
  | before _ task => some task
  | _ => none

@[simp] def PoolEvent.called? : PoolEvent τ → Option τ
  | ran _ task => some task
  | _ => none

@[simp] def PoolEvent.ended? : PoolEvent τ → Option τ
  | after _ task _ => some task
  | _ => none

namespace Pool

variable {p q : Pool τ σ} {act : PoolAct τ σ} {events : List (PoolEvent τ)} {w : Nat} {a b : WorkerPhase τ σ}
  {task : τ} {refusal : Option IoError} {history : List (Moment τ σ)} {g : WorkerPhase τ σ → Option τ}

/-- The tasks of the submissions that were accepted, oldest first. -/
def acceptedTasks (history : List (Moment τ σ)) : List τ := (chronicle history).filterMap PoolEvent.accepted?

/-- The tasks of the executions that were begun, with the hook before the task. -/
def begunTasks (history : List (Moment τ σ)) : List τ := (chronicle history).filterMap PoolEvent.begun?

/-- The tasks that were called. -/
def calledTasks (history : List (Moment τ σ)) : List τ := (chronicle history).filterMap PoolEvent.called?

/-- The tasks of the executions that came to their ends, with the return of the hook after the task. -/
def endedTasks (history : List (Moment τ σ)) : List τ := (chronicle history).filterMap PoolEvent.ended?

/-- What the workers have in their phases. -/
def gathered (p : Pool τ σ) (g : WorkerPhase τ σ → Option τ) : List τ := p.workers.filterMap fun x => g x.phase

/-- The tasks that are taken and not begun, queued or undone. -/
def line (p : Pool τ σ) : List τ := p.gathered WorkerPhase.held? ++ p.queue ++ p.undone

/-! ## One worker at a time -/

/-- No more than one worker lives. -/
structure Lone (p : Pool τ σ) : Prop where
  counted : p.Counted
  few : p.live ≤ 1

theorem filterMap_alone {α β : Type} {f : α → Option β} {P : α → Bool} (hf : ∀ x, P x = false → f x = none) {x : α}
    (hx : P x = true) : ∀ {l : List α}, x ∈ l → l.countP P ≤ 1 → l.filterMap f = (f x).toList
  | y :: l, hmem, hle => by
      by_cases hy : P y = true
      · rw [List.countP_cons_of_pos hy] at hle
        have hrest : ∀ z ∈ l, P z = false := by
          have := List.countP_eq_zero.mp (by omega : l.countP P = 0)
          simpa using this
        have hl : l.filterMap f = [] := List.filterMap_eq_nil_iff.mpr fun z hz => hf z (hrest z hz)
        obtain rfl : x = y := by
          rcases List.mem_cons.mp hmem with h | h
          · exact h
          · rw [hrest x h] at hx; cases hx
        rw [List.filterMap_cons, hl]
        cases f x <;> rfl
      · rw [List.countP_cons_of_neg hy] at hle
        have hmem : x ∈ l := by
          rcases List.mem_cons.mp hmem with rfl | h
          · exact absurd hx hy
          · exact h
        rw [List.filterMap_cons, hf y (by simpa using hy)]
        exact filterMap_alone hf hx hmem hle

theorem Lone.gathered (h : p.Lone) (hg : g .retired = none) (hw : p.phase? w = some a) (ha : a.isRetired = false) :
    p.gathered g = (g a).toList := by
  have hfew : p.tally (fun c => !c.isRetired) ≤ 1 := by rw [← h.counted]; exact h.few
  have hnone (x : Worker τ σ) (hx : (!x.phase.isRetired) = false) : g x.phase = none := by
    cases hx' : x.phase with
    | retired => exact hg
    | _ => rw [hx'] at hx; cases hx
  exact filterMap_alone hnone (x := ⟨w, a⟩) (by simp [ha]) (mem_of_phase? hw) hfew

theorem Counted.gathered_nil (h : p.Counted) (hg : g .retired = none) (hlive : p.live = 0) : p.gathered g = [] := by
  have hnone : p.tally (fun c => !c.isRetired) = 0 := by rw [← hlive]; exact h.symm
  refine List.filterMap_eq_nil_iff.mpr fun x hx => ?_
  have hx := List.countP_eq_zero.mp hnone x hx
  cases hx' : x.phase with
  | retired => exact hg
  | _ => rw [hx'] at hx; exact absurd rfl hx

theorem Lone.length_gathered (h : p.Lone) (hg : g .retired = none) : (p.gathered g).length ≤ 1 := by
  have hsome (x : Worker τ σ) (hx : (g x.phase).isSome = true) : (!x.phase.isRetired) = true := by
    cases hx' : x.phase with
    | retired => rw [hx', hg] at hx; cases hx
    | _ => rfl
  calc (p.gathered g).length = p.workers.countP fun x => (g x.phase).isSome := List.length_filterMap_eq_countP
    _ ≤ p.workers.countP fun x => !x.phase.isRetired := List.countP_mono_left fun x _ => hsome x
    _ = p.live := h.counted.symm
    _ ≤ 1 := h.few

/-- What the worker has after a step. -/
theorem Lone.moved (h : q.Lone) (hg : g .retired = none) (hw : p.phase? w = some a)
    (hworkers : q.workers = (p.setPhase w b).workers) (hb : b.isRetired = false) : q.gathered g = (g b).toList :=
  h.gathered hg (by rw [phase?, hworkers]; exact phase?_setPhase_self hw) hb

theorem Lone.stays (h : p.Lone) (k : q.Lone) (hg : g .retired = none) (hw : p.phase? w = some a) (ha : a.isRetired = false)
    (hworkers : q.workers = (p.setPhase w b).workers) (hb : b.isRetired = false) (hab : g b = g a) :
    q.gathered g = p.gathered g := by
  rw [k.moved hg hw hworkers hb, h.gathered hg hw ha, hab]

theorem Lone.leaves (h : p.Lone) (k : q.Lone) (hg : g .retired = none) (hw : p.phase? w = some a) (ha : a.isRetired = false)
    (hlive : q.live = p.live - 1) (hnone : g a = none) : q.gathered g = p.gathered g := by
  have hfew := h.few
  rw [k.counted.gathered_nil hg (by omega), h.gathered hg hw ha, hnone]
  rfl

theorem gathered_launch (first : Option τ) : (p.launch first).gathered g = p.gathered g ++ (g (firstPhase first)).toList := by
  rw [gathered, workers_launch, List.filterMap_append]
  cases h : g (firstPhase first) <;> simp [h, gathered]

theorem Reachable.lone [DecidableEq τ] (h : Reachable history p) (hone : p.settings.max = 1) : p.Lone :=
  ⟨h.counted, hone ▸ h.bounded⟩

/-! ## The line -/

theorem undone_of_going (h : p.isStopping = false) : p.undone = [] := by
  have hstop : p.stop = none := by simpa [isStopping] using h
  rw [undone, hstop]

theorem Lone.line (h : p.Lone) (hw : p.phase? w = some a) (ha : a.isRetired = false) :
    p.line = a.held?.toList ++ p.queue ++ p.undone := by
  rw [Pool.line, h.gathered rfl hw ha]

theorem Lone.line_setPhase (h : (p.setPhase w b).Lone) (hw : p.phase? w = some a) (hb : b.isRetired = false) :
    (p.setPhase w b).line = b.held?.toList ++ p.queue ++ p.undone :=
  h.line (phase?_setPhase_self hw) hb

theorem line_launch (first : Option τ) :
    (p.launch first).line = p.gathered WorkerPhase.held? ++ (firstPhase (σ := σ) first).held?.toList ++ p.queue ++ p.undone := by
  rw [Pool.line, gathered_launch]; rfl

/-- A submission that is accepted joins the line at its end. -/
theorem Admission.line (ha : Admission p task none q events) (hman : p.Manned) (hp : p.Lone) (hq : q.Lone)
    (hatt : p.isStopping = false → p.Attended) (hcore : p.settings.core ≤ 1) (hmax : p.settings.max = 1) :
    p.line ++ events.filterMap PoolEvent.accepted? = events.filterMap PoolEvent.begun? ++ q.line := by
  cases ha with
  | stopped | full => simp [List.filterMap_cons]
  | started hgoing hl =>
      -- the line is empty, and the new worker has the task in hand
      have hlive : p.live = 0 := by omega
      rw [line_launch, Pool.line, hp.counted.gathered_nil rfl hlive, (hatt hgoing).queue_nil hlive, undone_of_going hgoing]
      rfl
  | @handed _ worker rest hgoing _ _ hw =>
      obtain ⟨timed, ht⟩ := hman.waiting worker (by rw [hw]; exact List.mem_cons_self)
      rw [hp.line ht rfl, hq.line_setPhase (p := { p with channel := { p.channel with waiting := rest } }) ht rfl]
      show [] ++ p.queue ++ p.undone ++ [task] = [] ++ ([task] ++ p.queue ++ p.undone)
      rw [(hatt hgoing).idle (by rw [hw]; simp), undone_of_going hgoing]
      rfl
  | queued hgoing =>
      have hline : (p.enqueue task).line = p.gathered WorkerPhase.held? ++ (p.queue ++ [task]) ++ p.undone := rfl
      rw [hline, Pool.line, undone_of_going hgoing]
      simp
  | rescued hgoing =>
      rw [line_launch, Pool.line, undone_of_going hgoing]
      show _ = [] ++ (p.gathered WorkerPhase.held? ++ [] ++ (p.queue ++ [task]) ++ p.undone)
      rw [undone_of_going hgoing]
      simp [List.filterMap_cons]

/-- Only the worker takes from the line, at its front, and nothing overtakes. -/
theorem Move.line (hm : Move p act q events) (hman : p.Manned) (hp : p.Lone) (hq : q.Lone)
    (hatt : p.isStopping = false → p.Attended) (hcore : p.settings.core ≤ 1) (hmax : p.settings.max = 1)
    (hact : act.isStaffed = true) :
    p.line ++ events.filterMap PoolEvent.accepted? = events.filterMap PoolEvent.begun? ++ q.line := by
  have hkept {u : Pool τ σ} {l : List (PoolEvent τ)} (hheld : u.gathered WorkerPhase.held? = p.gathered WorkerPhase.held?)
      (hrest : u.queue ++ u.undone = p.queue ++ p.undone) (haccepted : l.filterMap PoolEvent.accepted? = [])
      (hbegun : l.filterMap PoolEvent.begun? = []) :
      p.line ++ l.filterMap PoolEvent.accepted? = l.filterMap PoolEvent.begun? ++ u.line := by
    rw [haccepted, hbegun, List.append_nil, List.nil_append, Pool.line, Pool.line, hheld, List.append_assoc,
      List.append_assoc, hrest]
  have hbegins {w : Nat} {task : τ} {b : WorkerPhase τ σ} (hu : (p.setPhase w b).Lone)
      (hw : p.phase? w = some (.ready task)) (hb : b.isRetired = false) (hnone : b.held? = none) :
      p.line = [task] ++ (p.setPhase w b).line := by
    rw [hp.line hw rfl, hu.line_setPhase hw hb, hnone]
    rfl
  cases hm with
  | @submitted task refusal _ _ ha =>
      cases refusal with
      | some error => cases hact
      | none => exact ha.line hman hp hq hatt hcore hmax
  | dismissed hw | left hw | retired hw => exact hkept (hp.leaves hq rfl hw rfl rfl rfl) rfl rfl rfl
  | @took w timed task rest hw hqueue =>
      -- the front of the queue goes into the hands of the worker, which were empty
      rw [hp.line hw rfl, hq.line_setPhase (p := { p with channel := { p.channel with buffer := rest } }) hw rfl, hqueue]
      show [] ++ task :: rest ++ p.undone ++ [] = [] ++ ([task] ++ rest ++ p.undone)
      simp
  | cutOff hw => rcases hw with ⟨hw, -⟩ | hw <;> exact hkept (hp.stays hq rfl hw rfl rfl rfl rfl) rfl rfl rfl
  | heeded hw => exact hkept (hp.stays hq rfl hw rfl rfl rfl rfl) rfl (by split <;> rfl) (by split <;> rfl)
  | entered hw | barred hw => rw [hbegins hq hw rfl rfl]; exact List.append_nil _
  | finished hw =>
      exact hkept (hp.stays hq rfl hw rfl rfl rfl rfl) rfl (by unfold panicEvents; split <;> rfl)
        (by unfold panicEvents; split <;> rfl)
  | @completed w task panic stage hookPanic hw =>
      exact hkept (hp.stays (b := .leaving task) hq rfl hw rfl rfl rfl rfl) rfl (by cases hookPanic <;> rfl)
        (by cases hookPanic <;> rfl)
  | sought hw | waits hw | expired hw | stayed hw | recorded hw | advanced hw | hooked hw | released hw =>
      exact hkept (hp.stays hq rfl hw rfl rfl rfl rfl) rfl rfl rfl
  | drained hs =>
      refine hkept rfl ?_ rfl rfl
      have hundone : p.undone = [] := by rw [undone, hs]
      rw [hundone, List.append_nil]
      rfl
  | halted hs => exact hkept rfl (by simp [undone, hs, queue]) rfl rfl
  | interrupted hs | awaits hs | abandoned hs => exact hkept rfl (by simp [undone, hs, queue]) rfl rfl
  | reported hs => rcases hs with hs | hs <;> exact hkept rfl (by simp [undone, hs, queue]) rfl rfl
  | rechecked => exact hkept rfl rfl rfl rfl

/-- An execution is begun by the worker when no other one is under way, and it ends before the next one. -/
theorem Move.turns (hm : Move p act q events) (hman : p.Manned) (hp : p.Lone) (hq : q.Lone) :
    p.gathered WorkerPhase.executing? ++ events.filterMap PoolEvent.begun?
      = events.filterMap PoolEvent.ended? ++ q.gathered WorkerPhase.executing? := by
  have hkept {u : Pool τ σ} {l : List (PoolEvent τ)}
      (hsame : u.gathered WorkerPhase.executing? = p.gathered WorkerPhase.executing?)
      (hbegun : l.filterMap PoolEvent.begun? = []) (hended : l.filterMap PoolEvent.ended? = []) :
      p.gathered WorkerPhase.executing? ++ l.filterMap PoolEvent.begun?
        = l.filterMap PoolEvent.ended? ++ u.gathered WorkerPhase.executing? := by
    rw [hbegun, hended, hsame]
    simp
  cases hm with
  | submitted ha =>
      cases ha with
      | stopped | unstaffed | full | queued | stranded => exact hkept rfl rfl rfl
      | started =>
          exact hkept ((gathered_launch _).trans (List.append_nil _)) rfl rfl
      | rescued => exact hkept ((gathered_launch (p := p.enqueue _) none).trans (List.append_nil _)) rfl rfl
      | @handed _ worker rest _ _ _ hw =>
          obtain ⟨timed, ht⟩ := hman.waiting worker (by rw [hw]; exact List.mem_cons_self)
          exact hkept (hp.stays hq rfl ht rfl rfl rfl rfl) rfl rfl
  | dismissed hw | left hw | retired hw => exact hkept (hp.leaves hq rfl hw rfl rfl rfl) rfl rfl
  | cutOff hw => rcases hw with ⟨hw, -⟩ | hw <;> exact hkept (hp.stays hq rfl hw rfl rfl rfl rfl) rfl rfl
  | heeded hw => exact hkept (hp.stays hq rfl hw rfl rfl rfl rfl) (by split <;> rfl) (by split <;> rfl)
  | entered hw | barred hw =>
      rw [hp.gathered rfl hw rfl, hq.moved rfl hw rfl rfl]
      rfl
  | finished hw =>
      exact hkept (hp.stays hq rfl hw rfl rfl rfl rfl) (by unfold panicEvents; split <;> rfl)
        (by unfold panicEvents; split <;> rfl)
  | @completed w task panic stage hookPanic hw =>
      rw [hp.gathered rfl hw rfl, hq.moved (b := .leaving task) rfl hw rfl rfl]
      cases hookPanic <;> rfl
  | sought hw | waits hw | took hw | expired hw | stayed hw | recorded hw | advanced hw | hooked hw | released hw =>
      exact hkept (hp.stays hq rfl hw rfl rfl rfl rfl) rfl rfl
  | halted | drained | interrupted | reported | awaits | abandoned | rechecked => exact hkept rfl rfl rfl

/-- Who begins an execution calls its task, unless the hook before it panics. -/
theorem Move.called (hm : Move p act q events) [DecidableEq τ] :
    (events.filterMap PoolEvent.called?).Sublist (events.filterMap PoolEvent.begun?) ∧
      ((∀ t, (⟨act, events⟩ : Moment τ σ).bars t = false) →
        events.filterMap PoolEvent.called? = events.filterMap PoolEvent.begun?) := by
  have hequal {l : List (PoolEvent τ)} (h : l.filterMap PoolEvent.called? = l.filterMap PoolEvent.begun?) (P : Prop) :
      (l.filterMap PoolEvent.called?).Sublist (l.filterMap PoolEvent.begun?) ∧
        (P → l.filterMap PoolEvent.called? = l.filterMap PoolEvent.begun?) :=
    ⟨h ▸ .refl _, fun _ => h⟩
  cases hm with
  | submitted ha => cases ha <;> exact hequal rfl _
  | @barred w task stage message =>
      refine ⟨List.nil_sublist _, fun hunbarred => ?_⟩
      have := hunbarred task
      simp [Moment.bars] at this
  | heeded => exact hequal (by split <;> rfl) _
  | finished => exact hequal (by unfold panicEvents; split <;> rfl) _
  | @completed w task panic stage hookPanic => exact hequal (by cases hookPanic <;> rfl) _
  | _ => exact hequal rfl _

/-! ## Histories -/

/-- A stop of another thread than a worker saw that all workers have left. -/
def Moment.isAllGone (moment : Moment τ σ) : Prop :=
  (∃ undone, moment = ⟨.stop (.look false), [.stopped undone true]⟩) ∨
    moment = ⟨.stop (.recheck false), [.rechecked true]⟩

section
variable [DecidableEq τ]

theorem Move.lone (hm : Move p act q events) (h : Reachable history p) (hone : p.settings.max = 1) : q.Lone := by
  have hbound := hm.bounded h.settings h.bounded
  exact ⟨hm.counted h.counted h.manned, by omega⟩

theorem Reachable.accepted_in_line (h : Reachable history p) (hs : Staffed history) (hone : p.settings.max = 1) :
    acceptedTasks history = begunTasks history ++ p.line := by
  refine h.invariant (P := fun history p => Staffed history → p.settings.max = 1 →
    acceptedTasks history = begunTasks history ++ p.line) (fun _ _ _ _ => rfl) ?_ hs hone
  intro history p act q events hreach ih hm hs hone
  rw [hm.fixed.settings] at hone
  have hcore := (PoolSettings.max_of_validate hreach.settings).2
  have hline := hm.line hreach.manned (hreach.lone hone) (hm.lone hreach hone) (hreach.attended hs.tail) (by omega) hone
    (hs _ List.mem_cons_self)
  rw [acceptedTasks, begunTasks, chronicle_cons, List.filterMap_append, List.filterMap_append, List.append_assoc, ← hline,
    ← List.append_assoc]
  exact congrArg (· ++ _) (ih hs.tail hone)

theorem Reachable.one_at_a_time (h : Reachable history p) (hone : p.settings.max = 1) :
    begunTasks history = endedTasks history ++ p.gathered WorkerPhase.executing? := by
  refine h.invariant (P := fun history p => p.settings.max = 1 →
    begunTasks history = endedTasks history ++ p.gathered WorkerPhase.executing?) (fun _ _ _ => rfl) ?_ hone
  intro history p act q events hreach ih hm hone
  rw [hm.fixed.settings] at hone
  have hturns := hm.turns hreach.manned (hreach.lone hone) (hm.lone hreach hone)
  rw [begunTasks, endedTasks, chronicle_cons, List.filterMap_append, List.filterMap_append, List.append_assoc, ← hturns,
    ← List.append_assoc]
  exact congrArg (· ++ _) (ih hone)

theorem Reachable.calls_in_order (h : Reachable history p) :
    (calledTasks history).Sublist (begunTasks history) ∧
      ((∀ t, barred t history = 0) → calledTasks history = begunTasks history) := by
  refine h.invariant (P := fun history _ => (calledTasks history).Sublist (begunTasks history) ∧
    ((∀ t, barred t history = 0) → calledTasks history = begunTasks history)) (fun _ _ => ⟨.refl _, fun _ => rfl⟩) ?_
  intro history p act q events _ ih hm
  obtain ⟨hsublist, hequal⟩ := hm.called
  rw [calledTasks, begunTasks, chronicle_cons, List.filterMap_append, List.filterMap_append]
  refine ⟨ih.1.append hsublist, fun hunbarred => ?_⟩
  have hboth (t : τ) : barred t history = 0 ∧ (⟨act, events⟩ : Moment τ σ).bars t = false := by
    have hnone := List.countP_eq_zero.mp (hunbarred t)
    exact ⟨List.countP_eq_zero.mpr fun m hm => hnone m (List.mem_cons_of_mem _ hm),
      by simpa using hnone _ List.mem_cons_self⟩
  exact congrArg₂ (· ++ ·) (ih.2 fun t => (hboth t).1) (hequal fun t => (hboth t).2)

/-- Once all workers have left a pool that is stopping none is there again. -/
theorem Reachable.all_gone (h : Reachable history p) {moment : Moment τ σ} (hmem : moment ∈ history)
    (hgone : moment.isAllGone) : p.Deserted := by
  refine h.invariant (P := fun history p => moment ∈ history → p.Deserted) (fun _ _ hmem => by cases hmem) ?_ hmem
  intro history p act q events hreach ih hm hmem
  rcases List.mem_cons.mp hmem with rfl | hmem
  · refine (hm.deserted ?_ hreach.counted).1
    rcases hgone with ⟨undone, he⟩ | he
    · cases he; exact hm.terminated.1
    · cases he; exact hm.rechecked_true
  · exact (hm.deserted (ih hmem) hreach.counted).1

/-- A pool that may have one worker at a time, started anew or not, executes the tasks in the order in which they were
accepted, and begins an execution only after the hook of the one before has returned. In each execution the task is
called, unless the hook before it panics. The accepted tasks are at any time those that were begun, the one in the hands
of the worker, the queued and the undone ones, in this order. Once a stop has seen that all workers have left, they are
those that were executed and then those that the first stop gives back; a later stop may see it before the first one took
the queue back, and then the rest is still queued. -/
theorem served_in_order (h : Reachable history p) (hs : Staffed history) (hone : p.settings.max = 1) :
    (begunTasks history = endedTasks history ++ p.gathered WorkerPhase.executing? ∧
      (p.gathered WorkerPhase.executing?).length ≤ 1 ∧
      ∀ act q events w t, p.step act = some (q, events) → .before w t ∈ events → begunTasks history = endedTasks history) ∧
    acceptedTasks history = begunTasks history ++ p.gathered WorkerPhase.held? ++ p.queue ++ p.undone ∧
    ((calledTasks history).Sublist (begunTasks history) ∧
      ((∀ t, barred t history = 0) → calledTasks history = begunTasks history)) ∧
    (∀ undone ∈ reported history, acceptedTasks history = begunTasks history ++ p.gathered WorkerPhase.held? ++ undone) ∧
    (∀ undone, ⟨.stop (.look false), [.stopped undone true]⟩ ∈ history →
      begunTasks history = endedTasks history ∧ acceptedTasks history = endedTasks history ++ undone) ∧
    (⟨.stop (.recheck false), [.rechecked true]⟩ ∈ history →
      begunTasks history = endedTasks history ∧ (p.queue ≠ [] → p.stop = some .halted) ∧
      acceptedTasks history = endedTasks history ++ p.queue ++ p.undone ∧
      ∀ undone ∈ reported history, acceptedTasks history = endedTasks history ++ undone) := by
  have hlone := h.lone hone
  have hturns := h.one_at_a_time hone
  have hline := h.accepted_in_line hs hone
  have hreported (undone : List τ) (hmem : undone ∈ reported history) : p.queue = [] ∧ p.undone = undone := by
    obtain ⟨terminated, hstop⟩ := mem_reports (h.reports ▸ hmem)
    exact ⟨h.cleared.queue hstop (by simp), by rw [Pool.undone, hstop]⟩
  have hgone {moment : Moment τ σ} (hmem : moment ∈ history) (hgone : moment.isAllGone) :
      begunTasks history = endedTasks history ∧ acceptedTasks history = endedTasks history ++ p.queue ++ p.undone := by
    have hd := h.all_gone hmem hgone
    rw [hlone.counted.gathered_nil rfl hd.empty, List.append_nil] at hturns
    rw [Pool.line, hlone.counted.gathered_nil rfl hd.empty, List.nil_append, hturns, ← List.append_assoc] at hline
    exact ⟨hturns, hline⟩
  have hgiven (undone : List τ) (hmem : undone ∈ reported history)
      (hrest : acceptedTasks history = endedTasks history ++ p.queue ++ p.undone) :
      acceptedTasks history = endedTasks history ++ undone := by
    obtain ⟨hqueue, hundone⟩ := hreported undone hmem
    rw [hrest, hqueue, hundone, List.append_nil]
  refine ⟨⟨hturns, ?_, ?_⟩, ?_, h.calls_in_order, fun undone hmem => ?_, fun undone hmem => ?_, fun hmem => ?_⟩
  · exact hlone.length_gathered rfl
  · intro act q events w t hstep hbefore
    rw [hlone.gathered rfl ((step_move hstep).begins_ready hbefore) rfl] at hturns
    exact hturns.trans (List.append_nil _)
  · rw [hline, Pool.line, ← List.append_assoc, ← List.append_assoc]
  · obtain ⟨hqueue, hundone⟩ := hreported undone hmem
    rw [hline, Pool.line, hqueue, hundone, List.append_nil, ← List.append_assoc]
  · obtain ⟨hended, hrest⟩ := hgone hmem (.inl ⟨undone, rfl⟩)
    have hreport : undone ∈ reported history :=
      List.mem_filterMap.mpr ⟨_, List.mem_flatMap.mpr ⟨_, hmem, List.mem_cons_self⟩, rfl⟩
    exact ⟨hended, hgiven undone hreport hrest⟩
  · obtain ⟨hended, hrest⟩ := hgone hmem (.inr rfl)
    refine ⟨hended, fun hqueue => ?_, hrest, fun undone hreport => hgiven undone hreport hrest⟩
    have hd := h.all_gone hmem (.inr rfl)
    rcases h.cleared with hstop | hstop | hempty
    · have := hd.stopping
      rw [isStopping, hstop] at this
      cases this
    · exact hstop
    · exact absurd hempty hqueue

end

/-- The worker leaves after the first task and another one is started for the second; it is executing it when the pool is
stopped, and the third one is given back. -/
theorem served_across_restart : ∃ (history : List (Moment Nat Unit)) (p : Pool Nat Unit), Reachable history p ∧
    Staffed history ∧ p.settings.max = 1 ∧ p.nextWorker = 3 ∧
    ⟨.stop (.look false), [.stopped [2] true]⟩ ∈ history ∧ calledTasks history = [0, 1] ∧
    acceptedTasks history = [0, 1, 2] ∧ acceptedTasks history = endedTasks history ++ [2] := by
  let settings : PoolSettings := { PoolSettings.serial with core := 0 }
  let acts : List (PoolAct Nat Unit) :=
    [ .submit 0 none, .work 1 .seek, .work 1 .receive, .work 1 .record, .work 1 .heed, .work 1 (.enter () none),
      .work 1 (.finish () none), .work 1 (.complete none), .work 1 .release, .work 1 .seek, .work 1 .receive,
      .work 1 .expire, .work 1 .decide, .submit 1 none, .submit 2 none, .work 2 .seek, .work 2 .receive, .work 2 .record,
      .work 2 .heed, .work 2 (.enter () none), .stop .halt, .stop .drain, .stop .interrupt, .stop (.look false),
      .work 2 (.finish () (some "boom")), .work 2 (.complete none), .work 2 .release, .work 2 .seek, .stop (.look false) ]
  have hrun : (replay acts [] (create "pool" settings)).map (fun x => (x.1.all fun moment => moment.act.isStaffed,
      x.2.settings.max, x.2.nextWorker,
      x.1.any fun moment => moment.act = .stop (.look false) && moment.events = [.stopped [2] true],
      [calledTasks x.1, acceptedTasks x.1])) = some (true, 1, 3, true, [[0, 1], [0, 1, 2]]) := by
    decide +kernel
  obtain ⟨⟨history, p⟩, hr, hx⟩ := Option.map_eq_some_iff.mp hrun
  simp only [Prod.mk.injEq, List.all_eq_true, List.any_eq_true, Bool.and_eq_true, decide_eq_true_eq, List.cons.injEq,
    and_true] at hx
  obtain ⟨hstaffed, hmax, hnext, ⟨last, hmem, hact, hevents⟩, hcalled, haccepted⟩ := hx
  obtain rfl : last = ⟨.stop (.look false), [.stopped [2] true]⟩ := by cases last; cases hact; cases hevents; rfl
  have hreach := replay_reachable (.create "pool" rfl) hr
  obtain ⟨-, -, -, -, hstopped, -⟩ := served_in_order hreach hstaffed hmax
  exact ⟨history, p, hreach, hstaffed, hmax, hnext, hmem, hcalled, haccepted, (hstopped [2] hmem).2⟩

end Pool

end SingleFlight
