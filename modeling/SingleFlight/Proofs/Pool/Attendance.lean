import SingleFlight.Proofs.Pool.Partition

/-!
# Who comes for a queued task

Until a pool is stopped, a task in the queue is not forgotten: a worker waits only while the queue is empty, and as
long as no submission is refused some worker has not left. So there is a worker that will look at the queue. Where threads
can be created at any time a submission is refused only for want of room, and then nothing changes.
-/

namespace SingleFlight.Pool

variable {τ σ : Type} {p q : Pool τ σ} {act : PoolAct τ σ} {events : List (PoolEvent τ)} {w : Nat} {a b : WorkerPhase τ σ}
  {task : τ} {refusal : Option IoError} {history : List (Moment τ σ)}

theorem phase?_setPhase_cases {v : Nat} {c : WorkerPhase τ σ} (h : (p.setPhase w b).phase? v = some c) :
    v = w ∧ c = b ∨ v ≠ w ∧ p.phase? v = some c := by
  by_cases e : v = w
  · subst e
    rw [phase?_setPhase, if_pos rfl] at h
    obtain ⟨_, _, e⟩ := Option.map_eq_some_iff.mp h
    exact .inl ⟨rfl, e.symm⟩
  · rw [phase?_setPhase_ne e] at h
    exact .inr ⟨e, h⟩

/-- The queue is open, who waits is listed and finds it empty, and a queue that is not empty has a worker. -/
structure Attended (p : Pool τ σ) : Prop where
  isOpen : p.channel.isOpen = true
  connected : ∀ w, p.phase? w ≠ some .disconnected
  listed : ∀ w timed, p.phase? w = some (.waiting timed) → w ∈ p.channel.waiting
  idle : p.channel.waiting ≠ [] → p.queue = []
  staffed : p.queue ≠ [] → p.live ≠ 0

theorem Attended.queue_nil (h : p.Attended) (hlive : p.live = 0) : p.queue = [] :=
  Classical.byContradiction fun hne => h.staffed hne hlive

theorem Attended.create (name : String) (settings : PoolSettings) : (create name settings : Pool τ σ).Attended :=
  ⟨rfl, by simp [phase?, Pool.create], by simp [phase?, Pool.create], fun _ => rfl, fun h => absurd rfl h⟩

theorem Attended.setPhase (h : p.Attended) (hb : ∀ timed, b ≠ .waiting timed) (hb' : b ≠ .disconnected) :
    (p.setPhase w b).Attended := by
  refine ⟨h.isOpen, fun v hv => ?_, fun v timed hv => ?_, h.idle, h.staffed⟩
  · rcases phase?_setPhase_cases hv with ⟨-, e⟩ | ⟨-, hv⟩
    · exact hb' e.symm
    · exact h.connected v hv
  · rcases phase?_setPhase_cases hv with ⟨-, e⟩ | ⟨-, hv⟩
    · exact absurd e.symm (hb timed)
    · exact h.listed v timed hv

theorem Attended.retire (h : p.Attended) (hlive : 1 < p.live ∨ p.queue = []) : (p.retire w).1.Attended := by
  have hq : ({ p with live := p.live - 1 } : Pool τ σ).Attended :=
    ⟨h.isOpen, h.connected, h.listed, h.idle, fun hne => by
      rcases hlive with hlive | he
      · show p.live - 1 ≠ 0; omega
      · exact absurd he hne⟩
  exact hq.setPhase (by simp) (by simp)

theorem Attended.launch (h : p.Attended) (first : Option τ) : (p.launch first).Attended := by
  refine ⟨h.isOpen, fun v => ?_, fun v timed hv => ?_, h.idle, fun _ => Nat.succ_ne_zero _⟩
  · rw [phase?_launch]
    intro hv
    rcases Option.or_eq_some_iff.mp hv with hv | ⟨-, hv⟩
    · exact h.connected v hv
    · split at hv
      · cases first <;> cases hv
      · cases hv
  · rw [phase?_launch] at hv
    rcases Option.or_eq_some_iff.mp hv with hv | ⟨-, hv⟩
    · exact h.listed v timed hv
    · split at hv
      · cases first <;> cases hv
      · cases hv

/-! ## Submissions -/

/-- A task goes to a worker that waits rather than into the queue. -/
theorem queue_submit (h : p.channel.waiting ≠ []) : (p.submit task refusal).1.queue = p.queue := by
  obtain ⟨worker, rest, hw⟩ := List.exists_cons_of_ne_nil h
  unfold submit
  split
  · rfl
  · split
    · cases refusal <;> rfl
    · cases ho : p.channel.isOpen <;> simp [Channel.send, hw, ho, queue, Pool.setPhase]

theorem Attended.submit (h : p.Attended) (ha : Admission p task refusal q events)
    (hq : (p.submit task refusal).1 = q) (hno : PoolEvent.refusal? events = none) : q.Attended := by
  have hempty (hne : q.queue ≠ p.queue) : p.channel.waiting = [] :=
    Classical.byContradiction fun hw => hne (hq ▸ queue_submit hw)
  have hqueued : (p.enqueue task).queue ≠ p.queue := by simp [Pool.enqueue, queue]
  cases ha with
  | stopped | unstaffed | full => exact h
  | started => exact h.launch _
  | @handed _ worker rest _ _ _ hw =>
      have hidle : p.queue = [] := h.idle (by rw [hw]; simp)
      refine ⟨h.isOpen, ?_, fun v timed hv => ?_, fun _ => hidle, fun hne => absurd hidle hne⟩
      · exact (h.setPhase (w := worker) (b := .holding task) (by simp) (by simp)).connected
      · rcases phase?_setPhase_cases hv with ⟨-, e⟩ | ⟨e, hv⟩
        · cases e
        · have hv' := h.listed v timed hv
          rw [hw] at hv'
          exact (List.mem_cons.mp hv').resolve_left e
  | queued _ _ hlive =>
      exact ⟨h.isOpen, h.connected, h.listed, fun hne => absurd (hempty hqueued) hne, fun _ => hlive⟩
  | rescued =>
      have hq : ({ p.enqueue task with live := 1 } : Pool τ σ).Attended :=
        ⟨h.isOpen, h.connected, h.listed, fun hne => absurd (hempty hqueued) hne, fun _ => Nat.one_ne_zero⟩
      obtain ⟨ho, hc, hl, hi, -⟩ := hq.launch none
      exact ⟨ho, hc, hl, hi, fun _ => Nat.succ_ne_zero _⟩
  | stranded => cases hno

/-! ## Every step -/

theorem isStopping_before (hs : p.step act = some (q, events)) (hstop : q.isStopping = false) : p.isStopping = false := by
  have hgoing (hq : q.stop = p.stop) : p.isStopping = false := by rw [← hstop]; simp [isStopping, hq]
  cases step_move hs with
  | submitted ha => exact hgoing ha.stop
  | halted | drained | interrupted | reported | awaits | abandoned => cases hstop
  | _ => exact hgoing rfl

/-- Until the pool is stopped, and as long as no submission is refused, the queue stays attended. -/
theorem Attended.step (h : p.Attended) (hs : p.step act = some (q, events)) (hstop : q.isStopping = false)
    (hno : PoolEvent.refusal? events = none) : q.Attended := by
  have hgoing := isStopping_before hs hstop
  -- who begins to wait has just found the queue empty, and the last worker leaves an empty queue only
  cases step_move hs with
  | submitted ha => exact h.submit ha (congrArg Prod.fst (Option.some.inj hs)) hno
  | dismissed hw hst => cases hst.symm.trans hgoing
  | sought hw => exact h.setPhase (by simp) (by simp)
  | @took w _ _ rest hw hq =>
      have hidle : p.channel.waiting = [] := Classical.byContradiction fun hne => by
        rw [h.idle hne] at hq; cases hq
      have hrest : ({ p with channel := { p.channel with buffer := rest } } : Pool τ σ).Attended :=
        ⟨h.isOpen, h.connected, h.listed, fun hne => absurd hidle hne, fun _ => h.staffed (by rw [hq]; simp)⟩
      exact hrest.setPhase (b := .holding _) (by simp) (by simp)
  | @waits w timed hw hq =>
      refine ⟨h.isOpen, fun v hv => ?_, fun v timed hv => ?_, fun _ => hq, fun hne => absurd hq hne⟩
      · rcases phase?_setPhase_cases hv with ⟨-, e⟩ | ⟨-, hv⟩
        · cases e
        · exact h.connected v hv
      · rcases phase?_setPhase_cases hv with ⟨rfl, -⟩ | ⟨-, hv⟩
        · exact List.mem_append_right _ (List.mem_singleton.mpr rfl)
        · exact List.mem_append_left _ (h.listed v timed hv)
  | cutOff _ ho => cases ho.symm.trans h.isOpen
  | @expired w hw =>
      refine ⟨h.isOpen, ?_, fun v timed hv => ?_, fun hne => h.idle fun he => hne ?_, h.staffed⟩
      · exact (h.setPhase (w := w) (b := .expired) (by simp) (by simp)).connected
      · rcases phase?_setPhase_cases hv with ⟨-, e⟩ | ⟨e, hv⟩
        · cases e
        · exact List.mem_filter.mpr ⟨h.listed v timed hv, by simpa using e⟩
      · simp [Channel.withdraw, he]
  | retired _ hl => exact h.retire hl
  | stayed => exact h.setPhase (by simp) (by simp)
  | left hw => exact absurd hw (h.connected _)
  | recorded =>
      exact setPhase (p := p.enlist _ _) ⟨h.isOpen, h.connected, h.listed, h.idle, h.staffed⟩ (by simp) (by simp)
  | heeded | entered | barred | advanced | hooked | finished | completed => exact h.setPhase (by simp) (by simp)
  | released =>
      exact setPhase (p := p.strike _) ⟨h.isOpen, h.connected, h.listed, h.idle, h.staffed⟩ (by simp) (by simp)
  | halted | drained | interrupted | reported | awaits | abandoned => cases hstop
  | rechecked hst => cases hst.symm.trans hstop

/-- Some worker of a queue that is not empty neither has left nor waits. -/
theorem Attended.comer (h : p.Attended) (hcount : p.Counted) (hman : p.Manned) (hq : p.queue ≠ []) :
    ∃ w a, p.phase? w = some a ∧ a ≠ .retired ∧ a ≠ .disconnected ∧ ∀ timed, a ≠ .waiting timed := by
  have hlive := h.staffed hq
  rw [hcount] at hlive
  obtain ⟨w, a, hw, hr⟩ := exists_of_tally hman (Nat.pos_of_ne_zero hlive)
  refine ⟨w, a, hw, fun e => by simp [e, WorkerPhase.isRetired] at hr, fun e => h.connected _ (e ▸ hw),
    fun timed e => hq (h.idle ?_)⟩
  exact List.ne_nil_of_mem (h.listed w timed (e ▸ hw))

/-! ## Histories without a failed thread -/

/-- A submission that is refused although threads can be created changes nothing. -/
theorem Admission.refused (ha : Admission p task none q events) : PoolEvent.refusal? events = none ∨ q = p := by
  cases ha with
  | stopped | full => exact .inr rfl
  | started | handed | queued | rescued => exact .inl rfl

theorem Attended.staffed_step (h : p.Attended) (hs : p.step act = some (q, events)) (hstop : q.isStopping = false)
    (hact : act.isStaffed = true) : q.Attended := by
  have hquiet (hno : PoolEvent.refusal? events = none) : q.Attended := h.step hs hstop hno
  cases step_move hs with
  | @submitted task refusal _ _ ha =>
      cases refusal with
      | some error => cases hact
      | none =>
          rcases ha.refused with hno | rfl
          · exact hquiet hno
          · exact h
  | heeded => exact hquiet (by split <;> rfl)
  | finished => exact hquiet (by unfold panicEvents; split <;> rfl)
  | @completed w task panic stage hookPanic => exact hquiet (by cases hookPanic <;> rfl)
  | _ => exact hquiet rfl

theorem Reachable.attended (h : Reachable history p) (hs : Staffed history) (hgoing : p.isStopping = false) :
    p.Attended := by
  obtain ⟨name, settings, -, hrun⟩ := h
  induction hrun with
  | start => exact .create name settings
  | @step history p act q events _ hstep ih =>
      have hbefore := ih hs.tail (isStopping_before hstep hgoing)
      exact hbefore.staffed_step hstep hgoing (hs _ List.mem_cons_self)

/-- A worker that decides after its wait leaves the queue as it is. -/
theorem queue_decide (hs : p.step (.work w .decide) = some (q, events)) : q.queue = p.queue := by
  cases step_move hs <;> rfl

/-- Until the pool is stopped, a task in the queue has a live worker, and one that does not wait; this holds after every
decision of a worker whose wait ran out as well, whatever was submitted meanwhile. -/
theorem queued_task_has_worker [DecidableEq τ] (h : Reachable history p) (hs : Staffed history)
    (hgoing : p.isStopping = false) (hq : p.queue ≠ []) :
    (0 < p.live ∧ ∃ w a, p.phase? w = some a ∧ a ≠ .retired ∧ a ≠ .disconnected ∧ ∀ timed, a ≠ .waiting timed) ∧
    ∀ w q events, p.step (.work w .decide) = some (q, events) →
      q.queue = p.queue ∧ 0 < q.live ∧
        ∃ v a, q.phase? v = some a ∧ a ≠ .retired ∧ a ≠ .disconnected ∧ ∀ timed, a ≠ .waiting timed := by
  have hattended := h.attended hs hgoing
  refine ⟨⟨Nat.pos_of_ne_zero (hattended.staffed hq), hattended.comer h.counted h.manned hq⟩, fun w q events hstep => ?_⟩
  have hqueue := queue_decide hstep
  have hnext := h.step hstep
  have hattended' : q.Attended := hattended.staffed_step hstep
    (by cases step_move hstep <;> exact hgoing) rfl
  rw [← hqueue] at hq
  exact ⟨hqueue, Nat.pos_of_ne_zero (hattended'.staffed hq), hattended'.comer hnext.counted hnext.manned hq⟩

/-- Without core workers the only one waits in vain, a task is submitted before it decides, and it stays. -/
theorem task_before_decision_has_worker : ∃ (history : List (Moment Nat Unit)) (p q : Pool Nat Unit),
    Reachable history p ∧ Staffed history ∧ p.isStopping = false ∧ p.queue = [8] ∧
    p.step (.work 1 .decide) = some (q, []) ∧ 0 < p.live ∧ 0 < q.live := by
  let settings : PoolSettings := { PoolSettings.serial with core := 0 }
  let acts : List (PoolAct Nat Unit) :=
    [ .submit 7 none, .work 1 .seek, .work 1 .receive, .work 1 .record, .work 1 .heed, .work 1 (.enter () (some "boom")),
      .work 1 (.complete none), .work 1 .release, .work 1 .seek, .work 1 .receive, .work 1 .expire, .submit 8 none ]
  have hrun : (replay acts [] (create "pool" settings)).map (fun x => (x.1.all fun moment => moment.act.isStaffed,
      x.2.isStopping, x.2.queue, (x.2.step (.work 1 .decide)).map (·.2))) = some (true, false, [8], some []) := by
    decide +kernel
  obtain ⟨⟨history, p⟩, hr, hx⟩ := Option.map_eq_some_iff.mp hrun
  simp only [Prod.mk.injEq, List.all_eq_true, Option.map_eq_some_iff, Prod.exists, exists_eq_right] at hx
  obtain ⟨hstaffed, hgoing, hqueue, q, hstep⟩ := hx
  have hreach := replay_reachable (.create "pool" rfl) hr
  obtain ⟨⟨hlive, -⟩, hafter⟩ := queued_task_has_worker hreach hstaffed hgoing (by rw [hqueue]; simp)
  obtain ⟨-, hlive', -⟩ := hafter 1 q [] hstep
  exact ⟨history, p, q, hreach, hstaffed, hgoing, hqueue, hstep, hlive, hlive'⟩

end SingleFlight.Pool
