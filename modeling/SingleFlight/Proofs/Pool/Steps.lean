import SingleFlight.Proofs.Pool.Roster

/-!
# What the steps of a pool keep

A task is counted as pending while it is in the queue or in the hands of a worker that has not entered it.
Workers outside of tasks only move pending tasks around, a submission adds at most the task that it is
made for, and a stop only takes tasks away. None of these disturbs a worker inside of a task.
-/

namespace SingleFlight

variable {τ σ : Type}

/-- Whether a step is one of a worker outside of tasks and of hooks. -/
def WorkerAct.isRoutine : WorkerAct σ → Bool
  | .enter _ _ => false
  | .advance _ => false
  | .finish _ _ => false
  | .complete _ => false
  | _ => true

namespace Pool

variable {p q : Pool τ σ} {w v : Nat} {a b : WorkerPhase τ σ}

/-! ## Events of workers outside of tasks -/

/-- The events of a step outside of tasks: a worker leaves, or it interrupts its task because the pool is stopping. -/
theorem work_routine_events {act : WorkerAct σ} {events : List (PoolEvent τ)} (hact : act.isRoutine = true)
    (hw : p.work w act = some (q, events)) :
    (events = [] ∨ events = [.retired w]) ∨
      ∃ task, p.phase? w = some (.recorded task) ∧ p.isStopping = true ∧ events = [.interrupted task] := by
  unfold Pool.work at hw
  split at hw
  case h_1 => split at hw <;> cases hw <;> simp
  case h_2 => split at hw <;> cases hw <;> simp
  case h_3 => split at hw <;> cases hw; simp
  case h_4 => cases hw; simp
  case h_5 => split at hw <;> cases hw <;> simp
  case h_6 => cases hw; simp
  case h_7 => cases hw; simp
  case h_8 task hp =>
      cases hw
      cases hs : p.isStopping with
      | true => exact .inr ⟨task, hp, rfl, rfl⟩
      | false => simp
  case h_15 => cases hw; simp
  all_goals first | cases hact | cases hw

/-! ## Submissions -/

/-- The pool with one more task in the queue. -/
def enqueue (p : Pool τ σ) (task : τ) : Pool τ σ :=
  { p with channel := { p.channel with buffer := p.channel.buffer ++ [task] } }

/-- What becomes of a task that is submitted. -/
inductive Admission (p : Pool τ σ) (task : τ) : Option IoError → Pool τ σ → List (PoolEvent τ) → Prop
  /-- The pool is stopping, or its queue is closed. -/
  | stopped {refusal} : p.isStopping = true ∨ p.channel.isOpen = false →
      Admission p task refusal p [.refused task .stopped]
  /-- No worker can be started for it. -/
  | unstaffed {error} : p.isStopping = false → Admission p task (some error) p [.refused task (.spawn error)]
  /-- The queue is full and there are as many workers as there may be. -/
  | full {refusal} : p.isStopping = false → p.settings.core ≤ p.live → p.settings.max ≤ p.live →
      p.channel.capacity ≤ p.queue.length →
      Admission p task refusal p [.refused task (.queueFull p.settings.capacity)]
  /-- A worker is started with it. -/
  | started : p.isStopping = false → p.live < p.settings.core ∨ p.live < p.settings.max →
      Admission p task none (p.launch (some task)) [.started p.nextWorker, .accepted task]
  /-- It goes to a worker that waits. -/
  | handed {refusal worker rest} : p.isStopping = false → p.settings.core ≤ p.live → p.channel.isOpen = true →
      p.channel.waiting = worker :: rest →
      Admission p task refusal
        (({ p with channel := { p.channel with waiting := rest } }).setPhase worker (.holding task)) [.accepted task]
  /-- It waits in the queue. -/
  | queued {refusal} : p.isStopping = false → p.settings.core ≤ p.live → p.live ≠ 0 →
      p.queue.length < p.channel.capacity → Admission p task refusal (p.enqueue task) [.accepted task]
  /-- It waits in the queue, and a worker is started because there is none. -/
  | rescued : p.isStopping = false → p.settings.core ≤ p.live → p.live = 0 →
      p.queue.length < p.channel.capacity →
      Admission p task none ((p.enqueue task).launch none) [.started p.nextWorker, .accepted task]
  /-- It waits in the queue although it was refused, because there is no worker and none can be started. -/
  | stranded {error} : p.isStopping = false → p.settings.core ≤ p.live → p.live = 0 →
      p.queue.length < p.channel.capacity →
      Admission p task (some error) (p.enqueue task) [.refused task (.spawn error)]

theorem submit_admission (p : Pool τ σ) (task : τ) (refusal : Option IoError) :
    Admission p task refusal (p.submit task refusal).1 (p.submit task refusal).2 := by
  unfold submit
  split
  · rename_i hs; exact .stopped (.inl hs)
  · rename_i hs
    have hs : p.isStopping = false := by simpa using hs
    split
    · rename_i hl
      cases refusal with
      | none => exact .started hs (.inl hl)
      | some error => exact .unstaffed hs
    · rename_i hl
      have hl : p.settings.core ≤ p.live := by omega
      unfold Channel.send
      cases ho : p.channel.isOpen with
      | false => exact .stopped (.inr ho)
      | true =>
          cases hw : p.channel.waiting with
          | cons worker rest =>
              have : Admission p task refusal _ _ := .handed hs hl ho hw
              simpa [ho, hw] using this
          | nil =>
              by_cases hc : p.channel.buffer.length < p.channel.capacity
              · by_cases h0 : p.live = 0
                · cases refusal with
                  | none =>
                      have : Admission p task none _ _ := .rescued hs hl h0 hc
                      simpa [ho, hw, hc, h0, spawn, enqueue] using this
                  | some error =>
                      have : Admission p task (some error) _ _ := .stranded hs hl h0 hc
                      simpa [ho, hw, hc, h0, spawn, enqueue] using this
                · have : Admission p task refusal _ _ := .queued hs hl h0 hc
                  simpa [ho, hw, hc, h0, enqueue] using this
              · by_cases hm : p.live < p.settings.max
                · cases refusal with
                  | none =>
                      have : Admission p task none _ _ := .started hs (.inr hm)
                      simpa [ho, hw, hc, hm, spawn] using this
                  | some error =>
                      have : Admission p task (some error) _ _ := .unstaffed hs
                      simpa [ho, hw, hc, hm, spawn] using this
                · have : Admission p task refusal _ _ := .full hs hl (by omega)
                    (show p.channel.capacity ≤ p.queue.length by simpa [queue] using hc)
                  simpa [ho, hw, hc, hm] using this

variable {task : τ} {refusal : Option IoError} {events : List (PoolEvent τ)}

theorem Manned.enqueue (h : p.Manned) (task : τ) : (p.enqueue task).Manned :=
  ⟨h.distinct, h.numbered, h.once, h.waiting, h.closed⟩

theorem Manned.wake {rest : List Nat} (h : p.Manned) (hw : p.channel.waiting = w :: rest) :
    (({ p with channel := { p.channel with waiting := rest } }).setPhase w b).Manned := by
  have honce := h.once
  rw [hw, List.nodup_cons] at honce
  refine Manned.setPhase ⟨h.distinct, h.numbered, honce.2, fun v hv => h.waiting v ?_, fun hc => ?_⟩ honce.1
  · rw [hw]; exact List.mem_cons_of_mem _ hv
  · have := h.closed hc; rw [hw] at this; cases this

theorem Admission.manned (h : p.Manned) (ha : Admission p task refusal q events) : q.Manned := by
  cases ha with
  | stopped | unstaffed | full => exact h
  | started => exact h.launch _
  | handed _ _ _ hw => exact h.wake hw
  | queued | stranded => exact h.enqueue _
  | rescued => exact (h.enqueue _).launch _

theorem Admission.undisturbed (h : p.Manned) (ha : Admission p task refusal q events) : Undisturbed p q := by
  cases ha with
  | stopped | unstaffed | full => exact .refl p
  | started => exact .launch p _
  | handed _ _ _ hw =>
      obtain ⟨timed, ht⟩ := h.waiting _ (by rw [hw]; exact List.mem_cons_self)
      exact (Undisturbed.setPhase h.distinct ht rfl rfl).trans (.of_workers rfl)
  | queued | stranded => exact .of_workers rfl
  | rescued => exact (Undisturbed.of_workers (p := p) (q := p.enqueue task) rfl).trans (.launch _ _)

theorem Admission.stop (ha : Admission p task refusal q events) : q.stop = p.stop := by
  cases ha <;> rfl

theorem Admission.name (ha : Admission p task refusal q events) : q.name = p.name := by
  cases ha <;> rfl

theorem Admission.quiet (ha : Admission p task refusal q events) : ∀ other, .interrupted other ∉ events := by
  intro other
  cases ha <;> simp

/-! ## Events of a stop -/

/-- The stopping thread interrupts a task, reports the tasks of the queue, or looks for the workers again. -/
theorem halting_events {act : StopAct} (hh : p.halting act = some (q, events)) :
    (∃ task, events = [.interrupted task]) ∨ events = [] ∨
      (∃ undone terminated, events = [.stopped undone terminated]) ∨ ∃ terminated, events = [.rechecked terminated] := by
  unfold Pool.halting at hh
  split at hh
  case h_8 => cases hh
  all_goals
    first
    | (cases hh; simp)
    | (split at hh <;> cases hh <;> simp)

/-! ## Tasks that no worker has entered -/

section
variable [DecidableEq τ]

/-- How often a task is in the queue or taken and not yet entered. -/
def pending (p : Pool τ σ) (task : τ) : Nat :=
  p.queue.count task + p.tally fun c => c.held? = some task

/-- What a step outside of tasks keeps. -/
structure Quiet (p q : Pool τ σ) : Prop where
  manned : q.Manned
  undisturbed : Undisturbed p q
  pending : ∀ task, q.pending task = p.pending task
  stop : q.stop = p.stop
  name : q.name = p.name

theorem Quiet.trans {r : Pool τ σ} (h : Quiet p q) (k : Quiet q r) : Quiet p r where
  manned := k.manned
  undisturbed := h.undisturbed.trans k.undisturbed
  pending task := (k.pending task).trans (h.pending task)
  stop := k.stop.trans h.stop
  name := k.name.trans h.name

theorem Quiet.live (h : p.Manned) (k : Nat) : Quiet p { p with live := k } :=
  ⟨⟨h.distinct, h.numbered, h.once, h.waiting, h.closed⟩, .of_workers rfl, fun _ => rfl, rfl, rfl⟩

theorem Quiet.running (h : p.Manned) (l : List (Nat × τ)) : Quiet p { p with running := l } :=
  ⟨⟨h.distinct, h.numbered, h.once, h.waiting, h.closed⟩, .of_workers rfl, fun _ => rfl, rfl, rfl⟩

theorem pending_setPhase (h : p.Manned) (hw : p.phase? w = some a) (task : τ) :
    (p.setPhase w b).pending task + (decide (a.held? = some task)).toNat
      = p.pending task + (decide (b.held? = some task)).toNat := by
  have := tally_setPhase (P := fun c => decide (c.held? = some task)) (b := b) h.distinct hw
  simp only [Pool.pending, queue_setPhase]
  omega

theorem Quiet.setPhase (h : p.Manned) (hw : p.phase? w = some a) (ha : a.isEngaged = false)
    (hb : b.isEngaged = false) (hab : a.held? = b.held?) (hwait : w ∉ p.channel.waiting) :
    Quiet p (p.setPhase w b) where
  manned := h.setPhase hwait
  undisturbed := .setPhase h.distinct hw ha hb
  pending task := by
    have := pending_setPhase (b := b) h hw task
    rw [hab] at this; omega
  stop := rfl
  name := rfl

/-! ## Steps of workers outside of tasks -/

theorem Quiet.retire (h : p.Manned) (hw : p.phase? w = some a) (ha : a.isEngaged = false)
    (hheld : a.held? = none) (hwait : w ∉ p.channel.waiting) : Quiet p (p.retire w).1 :=
  (Quiet.live h (p.live - 1)).trans
    (.setPhase (Quiet.live h _).manned hw ha rfl hheld hwait)

theorem Quiet.take {task : τ} {rest : List τ} {timed : Bool} (h : p.Manned)
    (hw : p.phase? w = some (.listening timed)) (hb : p.channel.buffer = task :: rest) :
    Quiet p (({ p with channel := { p.channel with buffer := rest } }).setPhase w (.holding task)) where
  manned := Manned.setPhase ⟨h.distinct, h.numbered, h.once, h.waiting, h.closed⟩
    (h.not_waiting hw (by simp))
  undisturbed := (Undisturbed.setPhase h.distinct hw rfl rfl).trans (.of_workers rfl)
  pending other := by
    -- the task leaves the queue and is in the worker's hands
    have hleft : p.pending other
        = ({ p with channel := { p.channel with buffer := rest } } : Pool τ σ).pending other
          + (decide (some task = some other)).toNat := by
      simp only [Pool.pending, Pool.queue, hb, List.count_cons, tally]
      by_cases e : task = other <;> simp [e] <;> omega
    rw [hleft]
    exact pending_setPhase (p := { p with channel := { p.channel with buffer := rest } }) (a := .listening timed)
      (b := .holding task) ⟨h.distinct, h.numbered, h.once, h.waiting, h.closed⟩ hw other
  stop := rfl
  name := rfl

theorem Quiet.await {timed : Bool} (h : p.Manned) (hw : p.phase? w = some (.listening timed))
    (ho : p.channel.isOpen = true) :
    Quiet p (({ p with channel := { p.channel with waiting := p.channel.waiting ++ [w] } }).setPhase w
      (.waiting timed)) where
  manned := by
    have hw' := h.not_waiting hw (by simp)
    refine ⟨by rw [ids_setPhase]; exact h.distinct, numbered_setPhase h.numbered, ?_, ?_, ?_⟩
    · show (p.channel.waiting ++ [w]).Nodup
      rw [List.nodup_append]
      refine ⟨h.once, by simp, fun x hx y hy => ?_⟩
      simp only [List.mem_singleton] at hy; subst hy
      exact fun e => hw' (e ▸ hx)
    · intro v hv
      by_cases e : v = w
      · subst e; exact ⟨timed, phase?_setPhase_self hw⟩
      · have hv : v ∈ p.channel.waiting := by
          simpa [e] using (List.mem_append.mp hv)
        obtain ⟨t, ht⟩ := h.waiting v hv
        exact ⟨t, (phase?_setPhase_ne e).trans ht⟩
    · intro hc; exact absurd (ho.symm.trans hc) (by simp)
  undisturbed := (Undisturbed.setPhase h.distinct hw rfl rfl).trans (.of_workers rfl)
  pending task := by
    have := pending_setPhase (b := .waiting timed) h hw task
    simp only [WorkerPhase.held?, reduceCtorEq, decide_false, Bool.toNat_false, Nat.add_zero] at this
    exact this
  stop := rfl
  name := rfl

theorem Quiet.withdraw {timed : Bool} (h : p.Manned) (hw : p.phase? w = some (.waiting timed)) :
    Quiet p (({ p with channel := p.channel.withdraw w }).setPhase w .expired) where
  manned := by
    refine ⟨by rw [ids_setPhase]; exact h.distinct, numbered_setPhase h.numbered, h.once.filter _, ?_, ?_⟩
    · intro v hv
      obtain ⟨hv, hne⟩ := List.mem_filter.mp hv
      obtain ⟨t, ht⟩ := h.waiting v hv
      exact ⟨t, (phase?_setPhase_ne (by simpa using hne)).trans ht⟩
    · intro hc
      show p.channel.waiting.filter _ = []
      rw [h.closed hc]; rfl
  undisturbed := (Undisturbed.setPhase h.distinct hw rfl rfl).trans (.of_workers rfl)
  pending task := by
    have := pending_setPhase (b := .expired) h hw task
    simp only [WorkerPhase.held?, reduceCtorEq, decide_false, Bool.toNat_false, Nat.add_zero] at this
    exact this
  stop := rfl
  name := rfl

/-- A step outside of tasks and hooks moves no task but from the queue into the hands of the worker. -/
theorem Quiet.work {act : WorkerAct σ} {events : List (PoolEvent τ)} (h : p.Manned) (hact : act.isRoutine = true)
    (hw : p.work w act = some (q, events)) : Quiet p q := by
  unfold Pool.work at hw
  split at hw
  case h_1 hp =>
      split at hw <;> cases hw
      · exact .retire h hp rfl rfl (h.not_waiting hp (by simp))
      · exact .setPhase h hp rfl rfl rfl (h.not_waiting hp (by simp))
  case h_2 timed hp =>
      split at hw
      all_goals
        rename_i hr
        unfold Channel.receive at hr
        split at hr
      · rename_i hb; cases hr; cases hw; exact .take h hp hb
      · split at hr <;> cases hr
      · cases hr
      · rename_i hb
        split at hr
        · rename_i ho; cases hr; cases hw; exact .await h hp ho
        · cases hr
      · cases hr
      · split at hr
        · cases hr
        · cases hr; cases hw
          exact .setPhase h hp rfl rfl rfl (h.not_waiting hp (by simp))
  case h_3 hp =>
      split at hw
      · cases hw
      · rename_i hc
        cases hw
        exact .setPhase h hp rfl rfl rfl (by simp [h.closed (by simpa using hc)])
  case h_4 hp => cases hw; exact .withdraw h hp
  case h_5 hp =>
      split at hw <;> cases hw
      · exact .retire h hp rfl rfl (h.not_waiting hp (by simp))
      · exact .setPhase h hp rfl rfl rfl (h.not_waiting hp (by simp))
  case h_6 hp => cases hw; exact .retire h hp rfl rfl (h.not_waiting hp (by simp))
  case h_7 hp =>
      cases hw
      exact (Quiet.running h _).trans
        (.setPhase (Quiet.running h _).manned hp rfl rfl rfl (h.not_waiting hp (by simp)))
  case h_8 hp => cases hw; exact .setPhase h hp rfl rfl rfl (h.not_waiting hp (by simp))
  case h_15 hp =>
      cases hw
      exact (Quiet.running h _).trans
        (.setPhase (Quiet.running h _).manned hp rfl rfl rfl (h.not_waiting hp (by simp)))
  all_goals first | cases hact | cases hw

/-! ## What a submission adds -/

theorem pending_enqueue (p : Pool τ σ) (task other : τ) :
    (p.enqueue task).pending other = p.pending other + (decide (task = other)).toNat := by
  simp only [pending, enqueue, queue, tally, List.count_append, List.count_singleton, beq_iff_eq]
  by_cases e : task = other <;> simp [e] <;> omega

theorem pending_launch (p : Pool τ σ) (first : Option τ) (other : τ) :
    (p.launch first).pending other = p.pending other + (decide (first = some other)).toNat := by
  have hq : (p.launch first).queue = p.queue := rfl
  have hheld : (firstPhase first : WorkerPhase τ σ).held? = first := by cases first <;> rfl
  have := tally_launch (P := fun c => decide (c.held? = some other)) p first
  rw [hheld] at this
  unfold pending
  rw [hq, this, Nat.add_assoc]

/-- A submission adds the task once or not at all, and once if it is not refused. -/
theorem Admission.pending (h : p.Manned) (ha : Admission p task refusal q events) (other : τ) :
    q.pending other = p.pending other + (decide (task = other)).toNat
      ∨ q.pending other = p.pending other ∧ PoolEvent.refusal? events ≠ none := by
  cases ha with
  | stopped | unstaffed | full => exact .inr ⟨rfl, by simp [PoolEvent.refusal?]⟩
  | started => left; rw [pending_launch]; simp
  | @handed _ worker rest _ _ _ hw =>
      obtain ⟨timed, ht⟩ := h.waiting _ (by rw [hw]; exact List.mem_cons_self)
      left
      have := pending_setPhase (b := .holding task) h ht other
      simp only [WorkerPhase.held?, reduceCtorEq, decide_false, Bool.toNat_false, Nat.add_zero,
        Option.some.injEq] at this
      exact this
  | queued | stranded => left; exact pending_enqueue p task other
  | rescued => left; rw [pending_launch, pending_enqueue]; simp

/-! ## What a stop takes away -/

/-- What the thread that stops the pool does to it. -/
structure Drained (p q : Pool τ σ) : Prop where
  manned : q.Manned
  undisturbed : Undisturbed p q
  pending : ∀ task, q.pending task ≤ p.pending task
  name : q.name = p.name

theorem Drained.stop (h : p.Manned) (stage : Option (StopStage τ)) : Drained p { p with stop := stage } :=
  ⟨⟨h.distinct, h.numbered, h.once, h.waiting, h.closed⟩, .of_workers rfl, fun _ => Nat.le_refl _, rfl⟩

theorem Drained.halting {act : StopAct} (h : p.Manned) (hh : p.halting act = some (q, events)) : Drained p q := by
  unfold Pool.halting at hh
  split at hh
  case h_2 =>
      cases hh
      refine ⟨⟨h.distinct, h.numbered, .nil, ?_, fun _ => rfl⟩, .of_workers rfl, fun task => ?_, rfl⟩
      · intro v hv; cases hv
      · exact Nat.add_le_add_right (Nat.zero_le _) _
  case h_8 => cases hh
  all_goals
    first
    | cases hh; exact .stop h _
    | (split at hh <;> cases hh <;> exact .stop h _)

end

end Pool

end SingleFlight
