import SingleFlight.Proofs.Pool.Bookkeeping

/-!
# Refused submissions

A submission that is refused leaves the pool as it is, with one exception. In a pool without core workers a task is put
into the queue before a worker is started for it. If no worker lives and no thread can be created, the submission is
refused although the task is queued: a later worker finds it there, or a stop gives it back.
-/

namespace SingleFlight.Pool

variable {τ σ : Type} {p q r : Pool τ σ} {act : PoolAct τ σ} {events : List (PoolEvent τ)} {task t : τ}
  {refusal : Option IoError} {error : PoolError} {history later : List (Moment τ σ)}

/-- A task that is submitted now is queued, and there is no worker for it and no thread either. -/
def Strands (p : Pool τ σ) (refusal : Option IoError) : Prop :=
  p.isStopping = false ∧ p.settings.core = 0 ∧ p.live = 0 ∧ p.queue.length < p.channel.capacity ∧ refusal.isSome = true

instance : Decidable (p.Strands refusal) := inferInstanceAs (Decidable (_ ∧ _))

/-! ## Open queues and pools without workers -/

/-- The queue is open until a stop takes it back. -/
def Opened (p : Pool τ σ) : Prop := p.isStopping = false → p.channel.isOpen = true

theorem Move.opened (hm : Move p act q events) (h : p.Opened) : q.Opened := by
  have hkept {u : Pool τ σ} (hs : u.stop = p.stop) (hc : u.channel.isOpen = p.channel.isOpen) : u.Opened := by
    rw [Opened, isStopping, hs, hc]; exact h
  cases hm with
  | submitted ha => exact hkept ha.stop (by cases ha <;> rfl)
  | halted | drained | interrupted | reported | awaits | abandoned => exact fun hgoing => by cases hgoing
  | _ => exact hkept rfl rfl

theorem Reachable.opened (h : Reachable history p) : p.Opened :=
  h.invariant (P := fun _ p => p.Opened) (fun _ _ _ => rfl) fun _ ih hm => hm.opened ih

section
variable [DecidableEq τ]

theorem Reachable.nobody_waits (h : Reachable history p) (hlive : p.live = 0) : p.channel.waiting = [] := by
  refine List.eq_nil_iff_forall_not_mem.mpr fun w hw => ?_
  obtain ⟨timed, ht⟩ := h.manned.waiting w hw
  have hpos := h.counted.live_pos ht rfl
  omega

theorem Reachable.nothing_running (h : Reachable history p) (hlive : p.live = 0) : p.running = [] := by
  have hfew := h.books.few
  exact List.length_eq_zero_iff.mp (by omega)

/-! ## What a refusal leaves behind -/

omit [DecidableEq τ] in
theorem Admission.rejected (ha : Admission p task refusal q events) (herror : PoolEvent.refusal? events = some error) :
    q = p ∨ p.Strands refusal := by
  cases ha with
  | stopped | unstaffed | full => exact .inl rfl
  | started | handed | queued | rescued => cases herror
  | stranded hgoing hcore hlive hroom => exact .inr ⟨hgoing, by omega, hlive, hroom, rfl⟩

theorem Reachable.strands (h : Reachable history p) (hs : p.Strands refusal) (task : τ) :
    (p.submit task refusal).1 = p.enqueue task := by
  obtain ⟨hgoing, hcore, hlive, hroom, hrefusal⟩ := hs
  obtain ⟨error, rfl⟩ := Option.isSome_iff_exists.mp hrefusal
  rw [queue] at hroom
  simp [submit, hgoing, hcore, hlive, Channel.send, h.opened hgoing, h.nobody_waits hlive, hroom, spawn, enqueue]

theorem Reachable.rejects (h : Reachable history p) (hs : p.step (.submit task refusal) = some (q, events))
    (herror : PoolEvent.refusal? events = some error) : q = if p.Strands refusal then p.enqueue task else p := by
  have hq : (p.submit task refusal).1 = q := congrArg Prod.fst (Option.some.inj hs)
  split
  · rw [← hq]
    exact h.strands ‹_› task
  · cases step_move hs with
    | submitted ha => exact (ha.rejected herror).resolve_right ‹_›

/-! ## What becomes of a task that is not submitted again -/

/-- How often the task is in the queue, in the hands of a worker, or undone. -/
def copies (p : Pool τ σ) (t : τ) : Nat := p.queue.count t + p.held t + p.undone.count t

theorem copies_enqueue (p : Pool τ σ) (t : τ) : (p.enqueue t).copies t = p.copies t + 1 := by
  have hqueue : (p.enqueue t).queue.count t = p.queue.count t + 1 := by simp [enqueue, queue]
  have hheld : (p.enqueue t).held t = p.held t := rfl
  have hundone : (p.enqueue t).undone = p.undone := rfl
  simp only [copies, hqueue, hheld, hundone]
  omega

def Unsubmitted (t : τ) (history : List (Moment τ σ)) : Prop := ∀ moment ∈ history, moment.act.submits t = false

/-- The task is begun later, or a stop gives it back, without being submitted again. -/
def Resurfaces (p : Pool τ σ) (t : τ) : Prop :=
  ∃ later r, Run p later r ∧ Unsubmitted t later ∧ (0 < begun t later ∨ ∃ undone ∈ reported later, t ∈ undone)

theorem Move.unaccepted (hm : Move p act q events) (hact : act.submits t = false) :
    events.countP (PoolEvent.accepts t) = 0 := by
  cases hm with
  | submitted ha =>
      have hother : _ ≠ t := of_decide_eq_false hact
      cases ha <;> simp [hother]
  | heeded => split <;> simp
  | finished => unfold panicEvents; split <;> simp
  | @completed w task panic stage hookPanic => cases hookPanic <;> simp
  | _ => simp

/-- The copies of a task that is not submitted again are still there, or finished. -/
theorem Run.copies (hrun : Run p later r) (h : Reachable history p) (hno : Unsubmitted t later) :
    r.copies t + finished t later = p.copies t := by
  induction hrun with
  | start => rfl
  | step hrun hs ih =>
      have hbefore := ih fun moment hmem => hno moment (List.mem_cons_of_mem _ hmem)
      have hact := hno _ List.mem_cons_self
      have hbalance := (step_move hs).balance (h.run hrun).manned t (.inr hact)
      rw [(step_move hs).unaccepted hact] at hbalance
      simp only [Pool.copies, finished, happened_cons, List.countP_append] at hbefore ⊢
      omega

/-- Of a task that is not submitted again no more copies are begun or undone than there are. -/
theorem Run.begun_bounds (hrun : Run p later r) (h : Reachable history p) (hno : Unsubmitted t later) :
    begun t later + r.undone.count t ≤ p.copies t := by
  have hcopies := hrun.copies h hno
  have hbefore := h.executions t
  have hafter := (h.run hrun).executions t
  have hheld := executing_le_held r t
  simp only [Pool.copies, begun, finished, happened_append, List.countP_append] at *
  omega

theorem Reachable.not_resurfaces (h : Reachable history p) (hnone : p.copies t = 0) : ¬p.Resurfaces t := by
  rintro ⟨later, r, hrun, hno, hback⟩
  have hbounds := hrun.begun_bounds h hno
  have hundone : t ∉ r.undone := List.count_eq_zero.mp (by omega)
  rcases hback with hbegun | ⟨undone, hreported, hmem⟩
  · omega
  · have hreports : undone ∈ reported (later ++ history) := by
      rw [reported, happened_append, List.filterMap_append]
      exact List.mem_append_left _ hreported
    obtain ⟨terminated, hstop⟩ := mem_reports ((h.run hrun).reports ▸ hreports)
    exact hundone (by simpa [Pool.undone, hstop] using hmem)

/-- A stop of a pool without workers gives back all that is queued. -/
theorem Reachable.resurfaces (h : Reachable history p) (hgoing : p.isStopping = false) (hlive : p.live = 0)
    (hmem : t ∈ p.queue) : p.Resurfaces t := by
  have hstop : p.stop = none := by simpa [isStopping] using hgoing
  have hhalted : p.step (.stop .halt) = some ({ p with stop := some .halted }, []) := by
    simp [Pool.step, halting, hstop]
  have hdrained : Pool.step { p with stop := some .halted } (.stop .drain)
      = some ({ p with channel := p.channel.close.1, stop := some (.interrupting p.queue []) }, []) := by
    simp [Pool.step, halting, h.nothing_running hlive, Channel.close, queue]
  have hreported : Pool.step { p with channel := p.channel.close.1, stop := some (.interrupting p.queue []) }
      (.stop (.look false))
      = some ({ p with channel := p.channel.close.1, stop := some (.reported p.queue true) },
        [.stopped p.queue true]) := by
    simp [Pool.step, halting, isTerminated, hlive]
  exact ⟨_, _, ((Run.start.step hhalted).step hdrained).step hreported, by simp [Unsubmitted, PoolAct.submits],
    .inr ⟨p.queue, by simp [reported, happened], hmem⟩⟩

/-- A submission that is refused changes nothing but for a task that it strands in the queue, one copy more of it. That
copy is in the pool until it is finished or given back; without it a task that was not there before does not come back. -/
theorem refused_task_stays_iff (h : Reachable history p) (hs : p.step (.submit task refusal) = some (q, events))
    (herror : PoolEvent.refusal? events = some error) :
    (q = if p.Strands refusal then p.enqueue task else p) ∧
    (q.live = p.live ∧ q.nextWorker = p.nextWorker ∧ q.running = p.running) ∧
    (q.queue = p.queue ↔ ¬p.Strands refusal) ∧
    (∀ later r, Run q later r → Unsubmitted task later →
      r.copies task + finished task later = p.copies task + if p.Strands refusal then 1 else 0) ∧
    (p.copies task = 0 → (q.Resurfaces task ↔ p.Strands refusal)) := by
  have hq := h.rejects hs herror
  have hreach := h.step hs
  have hcopies : q.copies task = p.copies task + if p.Strands refusal then 1 else 0 := by
    rw [hq]
    split
    · exact copies_enqueue p task
    · rfl
  refine ⟨hq, ?_, ?_, fun later r hrun hno => (hrun.copies hreach hno).trans hcopies, fun hnone => ⟨fun hback => ?_, ?_⟩⟩
  · rw [hq]
    split <;> exact ⟨rfl, rfl, rfl⟩
  · rw [hq]
    split <;> simp [enqueue, queue, *]
  · refine Classical.byContradiction fun hnot => hreach.not_resurfaces ?_ hback
    rw [hcopies, hnone, if_neg hnot]
  · intro hstrands
    rw [if_pos hstrands] at hq
    obtain ⟨hgoing, -, hlive, -⟩ := hstrands
    subst hq
    exact hreach.resurfaces hgoing hlive (List.mem_append_right _ (List.mem_singleton.mpr rfl))

end

/-- The first submission to a pool without core workers is refused, and a stop gives its task back. -/
theorem first_task_refused_and_given_back : ∃ (settings : PoolSettings) (p q : Pool Nat Unit),
    Reachable [] p ∧ p.settings = settings ∧ settings.core = 0 ∧
    p.step (.submit 7 (some (.simple .wouldBlock))) = some (q, [.refused 7 (.spawn (.simple .wouldBlock))]) ∧
    p.queue = [] ∧ q.queue = [7] ∧ q.Resurfaces 7 := by
  let settings : PoolSettings := { PoolSettings.serial with core := 0 }
  have hreach : Reachable [] (create "pool" settings : Pool Nat Unit) := .create "pool" rfl
  have hs : (create "pool" settings : Pool Nat Unit).step (.submit 7 (some (.simple .wouldBlock)))
      = some ((create "pool" settings).enqueue 7, [.refused 7 (.spawn (.simple .wouldBlock))]) := rfl
  obtain ⟨-, -, -, -, hback⟩ := refused_task_stays_iff hreach hs rfl
  exact ⟨settings, _, _, hreach, rfl, rfl, hs, rfl, rfl, (hback rfl).mpr (by decide)⟩

/-- The task of a refused submission is in the queue afterwards, and the worker that is started for the next task runs
it. -/
theorem refused_task_run : ∃ (settings : PoolSettings) (q r : Pool Nat Unit) (later : List (Moment Nat Unit)),
    settings.validate = .ok () ∧ settings.core = 0 ∧
    (create "pool" settings).step (.submit 7 (some (.simple .wouldBlock)))
      = some (q, [.refused 7 (.spawn (.simple .wouldBlock))]) ∧
    (create "pool" settings : Pool Nat Unit).queue = [] ∧ q.queue = [7] ∧
    later.reverse.map Moment.act =
      [.submit 8 none, .work 1 .seek, .work 1 .receive, .work 1 .record, .work 1 .heed, .work 1 (.enter () none)] ∧
    Run q later r ∧ called 7 later = 1 := by
  let settings : PoolSettings := { PoolSettings.serial with core := 0 }
  let acts : List (PoolAct Nat Unit) :=
    [.submit 8 none, .work 1 .seek, .work 1 .receive, .work 1 .record, .work 1 .heed, .work 1 (.enter () none)]
  obtain ⟨later, r, hr, hacts, hcalled⟩ : ∃ later r,
      replay acts [] ((create "pool" settings).enqueue 7) = some (later, r) ∧ later.reverse.map Moment.act = acts ∧
      called 7 later = 1 :=
    ⟨_, _, rfl, rfl, rfl⟩
  exact ⟨settings, _, r, later, rfl, rfl, rfl, rfl, rfl, hacts, replay_run .start hr, hcalled⟩

end SingleFlight.Pool
