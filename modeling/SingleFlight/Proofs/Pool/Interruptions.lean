import SingleFlight.Proofs.Pool.Attendance
import SingleFlight.Proofs.Pool.Bookkeeping

/-!
# What a stop leaves to run

Once the thread that stops a pool has taken the queue back, no worker gets another task: each begins at most the one
execution whose task it has in hand. The tasks that were entered by then are interrupted by the stopping thread, one
after the other, and the others by their workers, which find the pool stopping before they call them.
-/

namespace SingleFlight

variable {τ σ : Type}

/-- The worker begins an execution. -/
@[simp] def PoolEvent.beginsOn (w : Nat) : PoolEvent τ → Bool
  | before v _ => v = w
  | _ => false

@[simp] def PoolEvent.interrupted? : PoolEvent τ → Option τ
  | interrupted task => some task
  | _ => none

namespace Pool

variable {p q r : Pool τ σ} {act : PoolAct τ σ} {events : List (PoolEvent τ)} {w v : Nat} {a b : WorkerPhase τ σ}
  {t : τ} {name : String} {settings : PoolSettings} {history later : List (Moment τ σ)}

/-- The tasks that the stopping thread itself interrupts in this step. -/
def Moment.alarmed (moment : Moment τ σ) : List τ :=
  match moment.act with
  | .stop .interrupt => moment.events.filterMap PoolEvent.interrupted?
  | _ => []

/-- The tasks that the stopping thread itself has interrupted, in this order. -/
def alarmed (history : List (Moment τ σ)) : List τ := history.reverse.flatMap Moment.alarmed

/-- The tasks that the stopping thread is still to interrupt. -/
def unalarmed (p : Pool τ σ) : List τ :=
  match p.stop with
  | some (.interrupting _ rest) => rest
  | _ => []

/-- How many executions the worker has begun. -/
def begunOn (w : Nat) (history : List (Moment τ σ)) : Nat := (happened history).countP (PoolEvent.beginsOn w)

/-- The worker found the pool stopping and interrupted the task that it was about to call. -/
def Warned (history : List (Moment τ σ)) (w : Nat) (t : τ) : Prop :=
  ∃ moment ∈ history, moment.act = .work w .heed ∧ moment.events = [.interrupted t]

/-- The task whose execution the worker has yet to begin. -/
def heldBy (p : Pool τ σ) (w : Nat) : Option τ := (p.phase? w).bind WorkerPhase.held?

/-- The queue was taken back. -/
structure Emptied (p : Pool τ σ) : Prop where
  stopping : p.isStopping = true
  begun : p.stop ≠ some .halted
  queue : p.queue = []

/-! ## Steps -/

theorem Admission.turned_away {task : τ} {refusal : Option IoError} (ha : Admission p task refusal q events)
    (h : p.isStopping = true) : q = p ∧ events = [.refused task .stopped] := by
  cases ha with
  | stopped => exact ⟨rfl, rfl⟩
  | unstaffed hs | full hs | started hs | handed hs | queued hs | rescued hs | stranded hs => rw [h] at hs; cases hs

theorem Move.emptied (hm : Move p act q events) (h : p.Emptied) : q.Emptied := by
  obtain ⟨hstop, hbegun, hqueue⟩ := h
  cases hm with
  | submitted ha => obtain ⟨rfl, -⟩ := ha.turned_away hstop; exact ⟨hstop, hbegun, hqueue⟩
  | took _ hq => rw [hqueue] at hq; cases hq
  | halted hs => simp [isStopping, hs] at hstop
  | drained hs => exact absurd hs hbegun
  | interrupted | awaits | abandoned | reported => exact ⟨rfl, by simp, hqueue⟩
  | _ => exact ⟨hstop, hbegun, hqueue⟩

theorem heldBy_setPhase_le (hw : p.phase? v = some a) (hab : b.held?.isSome → a.held?.isSome) :
    ((p.setPhase v b).heldBy w).isSome.toNat ≤ (p.heldBy w).isSome.toNat := by
  by_cases e : w = v
  · subst e
    simp only [heldBy, phase?_setPhase_self hw, hw, Option.bind_some]
    cases hb : b.held?.isSome with
    | false => exact Nat.zero_le _
    | true => exact (hab hb).symm ▸ Nat.le_refl _
  · exact Nat.le_of_eq (by rw [heldBy, heldBy, phase?_setPhase_ne e])

/-- A worker that begins an execution had its task in hand, and it gets no other one. -/
theorem Move.begins_held (hm : Move p act q events) (h : p.Emptied) (w : Nat) :
    events.countP (PoolEvent.beginsOn w) + (q.heldBy w).isSome.toNat ≤ (p.heldBy w).isSome.toNat := by
  have hquiet {u : Pool τ σ} {v : Nat} {a b : WorkerPhase τ σ} {l : List (PoolEvent τ)} (hw : p.phase? v = some a)
      (hu : u.workers = (p.setPhase v b).workers) (hab : b.held?.isSome → a.held?.isSome)
      (hno : l.countP (PoolEvent.beginsOn w) = 0) :
      l.countP (PoolEvent.beginsOn w) + (u.heldBy w).isSome.toNat ≤ (p.heldBy w).isSome.toNat := by
    have hsame : u.heldBy w = (p.setPhase v b).heldBy w := by rw [heldBy, phase?, hu, heldBy, phase?]
    rw [hno, hsame, Nat.zero_add]
    exact heldBy_setPhase_le hw hab
  have hbegins {v : Nat} {task : τ} {b : WorkerPhase τ σ} {e : PoolEvent τ} (hw : p.phase? v = some (.ready task))
      (hb : b.held? = none) (he : e.beginsOn w = false) :
      [.before v task, e].countP (PoolEvent.beginsOn w) + ((p.setPhase v b).heldBy w).isSome.toNat
        ≤ (p.heldBy w).isSome.toNat := by
    have hcount : [.before v task, e].countP (PoolEvent.beginsOn w) = (decide (v = w)).toNat := by
      rw [List.countP_cons, List.countP_cons, List.countP_nil, he]
      by_cases hv : v = w <;> simp [hv]
    rw [hcount]
    by_cases e : w = v
    · subst e
      rw [heldBy, phase?_setPhase_self hw, heldBy, hw, Option.bind_some, Option.bind_some, hb]
      simp
    · rw [heldBy, phase?_setPhase_ne e, ← heldBy, decide_eq_false fun e' => e e'.symm]
      simp
  cases hm with
  | submitted ha => obtain ⟨rfl, rfl⟩ := ha.turned_away h.stopping; simp
  | took _ hq => rw [h.queue] at hq; cases hq
  | entered hw | barred hw => exact hbegins hw rfl rfl
  | dismissed hw | retired hw | left hw => exact hquiet (b := .retired) hw rfl (by simp) (by simp)
  | cutOff hw => rcases hw with ⟨hw, -⟩ | hw <;> exact hquiet hw rfl (by simp) rfl
  | heeded hw => exact hquiet hw rfl (by simp) (by split <;> simp)
  | finished hw => exact hquiet hw rfl (by simp) (by unfold panicEvents; split <;> simp)
  | @completed _ task _ _ hookPanic hw =>
      exact hquiet (b := .leaving task) hw rfl (by simp) (by cases hookPanic <;> simp)
  | sought hw | waits hw | expired hw | stayed hw | recorded hw | advanced hw | hooked hw | released hw =>
      exact hquiet hw rfl (by simp) rfl
  | halted | drained | interrupted | reported | awaits | abandoned | rechecked => simp [heldBy, phase?]

theorem Move.readies (hm : Move p act q events) (h : p.Emptied) (hr : q.phase? w = some (.ready t)) :
    p.phase? w = some (.ready t) ∨ act = .work w .heed ∧ events = [.interrupted t] := by
  have hkept {u : Pool τ σ} {v : Nat} {b : WorkerPhase τ σ} (hu : u.workers = (p.setPhase v b).workers)
      (hb : ∀ task, b ≠ .ready task) (hr : u.phase? w = some (.ready t)) : p.phase? w = some (.ready t) := by
    have hr' : (p.setPhase v b).phase? w = some (.ready t) := by rw [phase?, ← hu]; exact hr
    rcases phase?_setPhase_cases hr' with ⟨-, e⟩ | ⟨-, hr⟩
    · exact absurd e.symm (hb t)
    · exact hr
  cases hm with
  | submitted ha => obtain ⟨rfl, -⟩ := ha.turned_away h.stopping; exact .inl hr
  | @heeded v task hw =>
      rcases phase?_setPhase_cases hr with ⟨rfl, e⟩ | ⟨-, hr⟩
      · cases e; exact .inr ⟨rfl, by rw [h.stopping]; rfl⟩
      · exact .inl hr
  | dismissed | retired | left => exact .inl (hkept (b := .retired) rfl (by simp) hr)
  | halted | drained | interrupted | reported | awaits | abandoned | rechecked => exact .inl hr
  | _ => exact .inl (hkept rfl (by simp) hr)

theorem Move.begins_ready (hm : Move p act q events) (hb : PoolEvent.before w t ∈ events) :
    p.phase? w = some (.ready t) := by
  cases hm with
  | entered hw | barred hw =>
      simp only [List.mem_cons, PoolEvent.before.injEq, reduceCtorEq, List.not_mem_nil, or_false] at hb
      obtain ⟨rfl, rfl⟩ := hb
      exact hw
  | submitted ha => cases ha <;> simp at hb
  | heeded => split at hb <;> simp at hb
  | finished => unfold panicEvents at hb; split at hb <;> simp at hb
  | @completed _ _ _ _ hookPanic => cases hookPanic <;> simp at hb
  | _ => simp at hb

/-- The stopping thread interrupts the tasks in their order. -/
theorem Move.alarms (hm : Move p act q events) (h : p.Emptied) :
    (⟨act, events⟩ : Moment τ σ).alarmed ++ q.unalarmed = p.unalarmed := by
  cases hm with
  | submitted ha => obtain ⟨rfl, -⟩ := ha.turned_away h.stopping; rfl
  | halted hs => have := h.stopping; simp [isStopping, hs] at this
  | drained hs => exact absurd hs h.begun
  | interrupted hs | awaits hs | abandoned hs => simp [Moment.alarmed, unalarmed, hs]
  | reported hs => rcases hs with hs | hs <;> simp [Moment.alarmed, unalarmed, hs]
  | _ => rfl

theorem Move.looks_unalarmed {onWorker : Bool} (hm : Move p (.stop (.look onWorker)) q events) : p.unalarmed = [] := by
  cases hm with
  | reported hs => rcases hs with hs | hs <;> rw [unalarmed, hs]
  | awaits hs => rw [unalarmed, hs]

theorem Move.starts_nobody (hm : Move p act q events) (h : p.isStopping = true) :
    events.filterMap PoolEvent.started? = [] := by
  cases hm with
  | submitted ha => obtain ⟨-, rfl⟩ := ha.turned_away h; rfl
  | heeded => split <;> rfl
  | finished => unfold panicEvents; split <;> rfl
  | @completed _ _ _ _ hookPanic => cases hookPanic <;> rfl
  | _ => rfl

/-! ## Runs -/

theorem Run.in_order [DecidableEq τ] (h : Run (create name settings) history p) : p.Manned ∧ p.Enrolled := by
  induction h with
  | start => exact ⟨.create name settings, List.nodup_nil, fun _ _ => by simp [entered?, phase?, Pool.create]⟩
  | step _ hs ih => exact ⟨(step_move hs).manned ih.1 hs, (step_move hs).enrolled ih.1 ih.2⟩

/-- What holds after the queue of the pool `p` was taken back. -/
structure Stopping (p : Pool τ σ) (later : List (Moment τ σ)) (q : Pool τ σ) : Prop where
  emptied : q.Emptied
  started : startedOnes later = []
  once : ∀ w, begunOn w later + (q.heldBy w).isSome.toNat ≤ 1
  warned : ∀ w t, q.phase? w = some (.ready t) → Warned later w t ∨ (w, t) ∈ p.running
  alarmed : p.running.map (·.2) = alarmed later ++ q.unalarmed

theorem Stopping.drained [DecidableEq τ] (h : Run (create name settings) history p)
    (hs : p.step (.stop .drain) = some (q, events)) : Stopping q [] q := by
  have henrolled : p.Enrolled := h.in_order.2
  cases step_move hs with
  | drained =>
      refine ⟨⟨rfl, by simp, rfl⟩, rfl, fun w => ?_, fun w t hw => .inr ?_, rfl⟩
      · rw [begunOn, happened, List.flatMap_nil, List.countP_nil, Nat.zero_add]
        exact Bool.toNat_le _
      · have hw' : p.phase? w = some (.ready t) := hw
        exact (henrolled.entry w t).mpr (by rw [entered?, hw']; rfl)

theorem Stopping.step (h : Stopping p later q) (hs : q.step act = some (r, events)) :
    Stopping p ({ act, events } :: later) r where
  emptied := (step_move hs).emptied h.emptied
  started := by rw [startedOnes_cons, (step_move hs).starts_nobody h.emptied.stopping, h.started]; rfl
  once w := by
    have hbefore := h.once w
    have hnow := (step_move hs).begins_held h.emptied w
    have hsum : begunOn w ({ act, events } :: later) = events.countP (PoolEvent.beginsOn w) + begunOn w later := by
      rw [begunOn, happened_cons, List.countP_append, ← begunOn]
    omega
  warned w t hr := by
    rcases (step_move hs).readies h.emptied hr with hr | ⟨hact, hevents⟩
    · rcases h.warned w t hr with ⟨moment, hmem, hw⟩ | hmem
      · exact .inl ⟨moment, List.mem_cons_of_mem _ hmem, hw⟩
      · exact .inr hmem
    · exact .inl ⟨_, List.mem_cons_self, hact, hevents⟩
  alarmed := by
    rw [h.alarmed, ← (step_move hs).alarms h.emptied, Pool.alarmed, Pool.alarmed, List.reverse_cons, List.flatMap_append,
      List.append_assoc]
    simp

theorem Run.stopping (hrun : Run q later r) (h : Stopping q [] q) : Stopping q later r := by
  induction hrun with
  | start => exact h
  | step _ hs ih => exact ih.step hs

/-- An execution that is begun after the queue was taken back has its task interrupted before it is called, or the task
was entered by then. -/
theorem Run.begins (hrun : Run q later r) (h : Stopping q [] q) :
    ∀ {after moment before}, later = after ++ moment :: before → .before w t ∈ moment.events →
      Warned before w t ∨ (w, t) ∈ q.running := by
  induction hrun with
  | start => intro after moment before e; simp at e
  | @step later p act r events hrun hs ih =>
      intro after moment before e hmem
      cases after with
      | nil =>
          cases e
          exact (hrun.stopping h).warned w t ((step_move hs).begins_ready hmem)
      | cons newest after =>
          cases e
          exact ih rfl hmem

/-- After the stop of a pool has taken the queue back, no worker is started and each begins at most one execution. Its
task is interrupted by the worker before it is called, or it was entered before; the tasks that were entered before, those
of all executions under way among them, are interrupted by the stopping thread one after the other before it looks
whether the workers have left. Later submissions are refused and change nothing. -/
theorem stop_interrupts_executions [DecidableEq τ] (h : Run (create name settings) history p)
    (hs : p.step (.stop .drain) = some (q, events)) (hrun : Run q later r) :
    startedOnes later = [] ∧ (∀ w, begunOn w later ≤ 1) ∧
    (∀ after moment before w t, later = after ++ moment :: before → .before w t ∈ moment.events →
      Warned before w t ∨ (w, t) ∈ q.running) ∧
    (∀ w a t, q.phase? w = some a → a.executing? = some t → (w, t) ∈ q.running) ∧
    q.running.map (·.2) = alarmed later ++ r.unalarmed ∧
    (∀ t rest, r.unalarmed = t :: rest →
      ∃ s, r.step (.stop .interrupt) = some (s, [.interrupted t]) ∧ s.unalarmed = rest) ∧
    (∀ onWorker s told, r.step (.stop (.look onWorker)) = some (s, told) → r.unalarmed = []) ∧
    ∀ task refusal, r.step (.submit task refusal) = some (r, [.refused task .stopped]) := by
  have hbegin := Stopping.drained h hs
  have hend := hrun.stopping hbegin
  have henrolled : q.Enrolled := (h.step hs).in_order.2
  refine ⟨hend.started, fun w => ?_, fun after moment before w t e hmem => hrun.begins hbegin e hmem,
    fun w a t hw ha => ?_, hend.alarmed, fun t rest hrest => ?_, fun _ _ _ hlook => (step_move hlook).looks_unalarmed,
    fun task refusal => ?_⟩
  · have := hend.once w
    omega
  · refine (henrolled.entry w t).mpr ?_
    rw [entered?, hw]
    cases a <;> first | exact ha | cases ha
  · unfold unalarmed at hrest
    split at hrest
    · rename_i undone rest' hstop
      subst hrest
      exact ⟨_, by simp [Pool.step, halting, hstop]; rfl, rfl⟩
    · cases hrest
  · obtain ⟨hq, hevents⟩ := (submit_admission r task refusal).turned_away hend.emptied.stopping
    exact congrArg some (Prod.ext hq hevents)

/-- A pool of two workers is stopped while one of them executes its task and the other is about to look whether the pool
is stopping: the stopping thread interrupts the one task, and the other worker interrupts its own before it begins. -/
theorem stop_interrupts_two_executions :
    ∃ (history later : List (Moment Nat Unit)) (settings : PoolSettings) (p q r : Pool Nat Unit),
      Run (create "pool" settings) history p ∧ p.step (.stop .drain) = some (q, []) ∧ Run q later r ∧
      q.running = [(1, 0), (2, 1)] ∧ startedOnes later = [] ∧ begunOn 1 later = 0 ∧ begunOn 2 later = 1 ∧
      alarmed later = [0] ∧ r.unalarmed = [1] ∧
      (∃ s, r.step (.stop .interrupt) = some (s, [.interrupted 1]) ∧ s.unalarmed = []) ∧
      r.step (.submit 2 none) = some (r, [.refused 2 .stopped]) := by
  let settings := { PoolSettings.serial with core := 2, max := 2 }
  let acts : List (PoolAct Nat Unit) :=
    [ .submit 0 none, .submit 1 none, .work 1 .record, .work 2 .record, .work 1 .heed, .work 1 (.enter () none), .stop .halt ]
  let acts' : List (PoolAct Nat Unit) := [ .stop .interrupt, .work 2 .heed, .work 2 (.enter () none) ]
  obtain ⟨history, p, q, later, r, hp, hs, hr, hrunning, hbegun, hbegun', halarmed, hleft⟩ : ∃ history p q later r,
      replay acts [] (create "pool" settings) = some (history, p) ∧ p.step (.stop .drain) = some (q, []) ∧
      replay acts' [] q = some (later, r) ∧ q.running = [(1, 0), (2, 1)] ∧ begunOn 1 later = 0 ∧ begunOn 2 later = 1 ∧
      alarmed later = [0] ∧ r.unalarmed = [1] :=
    ⟨_, _, _, _, _, rfl, rfl, rfl, rfl, rfl, rfl, rfl, rfl⟩
  have hrun : Run (create "pool" settings) history p := replay_run .start hp
  have hrun' : Run q later r := replay_run .start hr
  obtain ⟨hstarted, -, -, -, -, hnext, -, hrefused⟩ := stop_interrupts_executions hrun hs hrun'
  exact ⟨history, later, settings, p, q, r, hrun, hs, hrun', hrunning, hstarted, hbegun, hbegun', halarmed, hleft,
    hnext 1 [] hleft, hrefused 2 none⟩

end Pool

end SingleFlight
