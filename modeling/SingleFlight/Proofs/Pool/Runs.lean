import SingleFlight.Proofs.Pool.Moves

/-!
# Pools at work

A new pool with valid settings and the steps that it takes, newest first. Who takes the next step, what the tasks and
the hooks do, and which threads cannot be created is up to the environment. The workers that have not left are counted
at any time, and after the queue was taken back nothing is queued any more.
-/

namespace SingleFlight

variable {τ σ : Type}

def WorkerPhase.isRetired : WorkerPhase τ σ → Bool
  | retired => true
  | _ => false

namespace Pool

/-- A step that was taken, with its events. -/
structure Moment (τ σ : Type) where
  act : PoolAct τ σ
  events : List (PoolEvent τ)

/-- `Run start history p`: the steps of the history lead from `start` to `p`. -/
inductive Run (start : Pool τ σ) : List (Moment τ σ) → Pool τ σ → Prop
  | start : Run start [] start
  | step {history p act q events} : Run start history p → p.step act = some (q, events) →
      Run start ({ act, events } :: history) q

/-- `Reachable history p`: a new pool comes to `p` by the steps of the history. -/
def Reachable (history : List (Moment τ σ)) (p : Pool τ σ) : Prop :=
  ∃ (name : String) (settings : PoolSettings), settings.validate = .ok () ∧ Run (.create name settings) history p

variable {p q : Pool τ σ} {act : PoolAct τ σ} {events : List (PoolEvent τ)} {w : Nat} {a b : WorkerPhase τ σ}
  {history later : List (Moment τ σ)}

theorem Reachable.create (name : String) {settings : PoolSettings} (h : settings.validate = .ok ()) :
    Reachable [] (create name settings : Pool τ σ) :=
  ⟨name, settings, h, .start⟩

theorem Reachable.step (h : Reachable history p) (hs : p.step act = some (q, events)) :
    Reachable ({ act, events } :: history) q := by
  obtain ⟨name, settings, hvalid, hrun⟩ := h
  exact ⟨name, settings, hvalid, hrun.step hs⟩

theorem Run.trans {start : Pool τ σ} (h : Run start history p) (k : Run p later q) : Run start (later ++ history) q := by
  induction k with
  | start => exact h
  | step _ hs ih => exact ih.step hs

theorem Reachable.run (h : Reachable history p) (k : Run p later q) : Reachable (later ++ history) q := by
  obtain ⟨name, settings, hvalid, hrun⟩ := h
  exact ⟨name, settings, hvalid, hrun.trans k⟩

/-- What holds of every new pool and is kept by every move holds in every history. -/
theorem Reachable.invariant {P : List (Moment τ σ) → Pool τ σ → Prop}
    (hbegin : ∀ name settings, P [] (.create name settings))
    (hstep : ∀ {history p act q events}, Reachable history p → P history p → Move p act q events →
      P ({ act, events } :: history) q) (h : Reachable history p) : P history p := by
  obtain ⟨name, settings, hvalid, hrun⟩ := h
  induction hrun with
  | start => exact hbegin name settings
  | step hrun hs ih => exact hstep ⟨name, settings, hvalid, hrun⟩ ih (step_move hs)

/-- Takes the steps of a list one after the other, added to a history. -/
def replay : List (PoolAct τ σ) → List (Moment τ σ) → Pool τ σ → Option (List (Moment τ σ) × Pool τ σ)
  | [], history, p => some (history, p)
  | act :: acts, history, p => (p.step act).bind fun (q, events) => replay acts ({ act, events } :: history) q

theorem replay_run {start : Pool τ σ} : ∀ {acts : List (PoolAct τ σ)} {history history' : List (Moment τ σ)} {p q : Pool τ σ},
    Run start history p → replay acts history p = some (history', q) → Run start history' q
  | [], _, _, _, _, h, hr => by cases hr; exact h
  | act :: acts, history, history', p, q, h, hr => by
      obtain ⟨⟨next, events⟩, hs, hr⟩ := Option.bind_eq_some_iff.mp hr
      exact replay_run (h.step hs) hr

theorem replay_reachable {acts : List (PoolAct τ σ)} {history' : List (Moment τ σ)} (h : Reachable history p)
    (hr : replay acts history p = some (history', q)) : Reachable history' q := by
  obtain ⟨name, settings, hvalid, hrun⟩ := h
  exact ⟨name, settings, hvalid, replay_run hrun hr⟩

/-! ## Constants -/

/-- What is settled when the pool is created. -/
structure Fixed (p q : Pool τ σ) : Prop where
  settings : q.settings = p.settings
  capacity : q.channel.capacity = p.channel.capacity

theorem Admission.fixed {task : τ} {refusal : Option IoError} (h : Admission p task refusal q events) : Fixed p q := by
  cases h <;> exact ⟨rfl, rfl⟩

theorem Move.fixed (hm : Move p act q events) : Fixed p q := by
  cases hm with
  | submitted ha => exact ha.fixed
  | _ => exact ⟨rfl, rfl⟩

theorem Move.name (hm : Move p act q events) : q.name = p.name := by
  cases hm with
  | submitted ha => exact ha.name
  | _ => rfl

/-! ## Rosters -/

theorem Move.manned [DecidableEq τ] (hm : Move p act q events) (h : p.Manned) (hs : p.step act = some (q, events)) :
    q.Manned := by
  have hbusy {w : Nat} {a b : WorkerPhase τ σ} (hw : p.phase? w = some a) (ha : ∀ timed, a ≠ .waiting timed) : (p.setPhase w b).Manned :=
    h.setPhase (h.not_waiting hw ha)
  cases hm with
  | submitted ha => exact ha.manned h
  | entered hw | barred hw | advanced hw | hooked hw | finished hw | completed hw => exact hbusy hw (by simp)
  | halted | drained | interrupted | reported | awaits | abandoned | rechecked => exact (Drained.halting h hs).manned
  | _ => exact (Quiet.work h rfl hs).manned

theorem Reachable.manned [DecidableEq τ] (h : Reachable history p) : p.Manned := by
  obtain ⟨name, settings, -, hrun⟩ := h
  induction hrun with
  | start => exact .create name settings
  | step _ hs ih => exact (step_move hs).manned ih hs

theorem tally_le {P Q : WorkerPhase τ σ → Bool} (h : ∀ a, P a = true → Q a = true) (p : Pool τ σ) :
    p.tally P ≤ p.tally Q :=
  List.countP_mono_left fun x _ => h x.phase

theorem tally_setPhase_same {P : WorkerPhase τ σ → Bool} (hman : p.Manned) (hw : p.phase? w = some a) (hab : P b = P a) :
    (p.setPhase w b).tally P = p.tally P := by
  have := tally_setPhase (P := P) (b := b) hman.distinct hw
  rw [hab] at this
  omega

/-- The number of live workers is the number of those that have not left. -/
def Counted (p : Pool τ σ) : Prop := p.live = p.tally fun a => !a.isRetired

theorem Counted.setPhase (h : p.Counted) (hman : p.Manned) (hw : p.phase? w = some a) (ha : a.isRetired = false)
    (hb : b.isRetired = false) : (p.setPhase w b).Counted := by
  show p.live = _
  rw [tally_setPhase_same hman hw (by rw [ha, hb]), h]

theorem Counted.retire (h : p.Counted) (hman : p.Manned) (hw : p.phase? w = some a) (ha : a.isRetired = false) :
    (p.retire w).1.Counted := by
  have hone : (!a.isRetired).toNat = 1 := by rw [ha]; rfl
  have hnone : (!(WorkerPhase.retired : WorkerPhase τ σ).isRetired).toNat = 0 := rfl
  have := tally_setPhase (P := fun c => !c.isRetired) (b := .retired) hman.distinct hw
  have hlive : p.live = _ := h
  have hlive' : (p.retire w).1.live = p.live - 1 := rfl
  have htally : (p.retire w).1.tally (fun c => !c.isRetired) = (p.setPhase w .retired).tally fun c => !c.isRetired := rfl
  unfold Counted
  omega

theorem Counted.launch (h : p.Counted) (first : Option τ) : (p.launch first).Counted := by
  have : (firstPhase first : WorkerPhase τ σ).isRetired = false := by cases first <;> rfl
  show p.live + 1 = _
  rw [tally_launch, this, h]
  rfl

theorem Counted.congr (h : p.Counted) (hl : q.live = p.live) (hw : q.workers = p.workers) : q.Counted := by
  show q.live = _
  rw [hl, h, tally, tally, hw]

theorem Admission.counted {task : τ} {refusal : Option IoError} (ha : Admission p task refusal q events) (h : p.Counted)
    (hman : p.Manned) : q.Counted := by
  cases ha with
  | stopped | unstaffed | full => exact h
  | started => exact h.launch _
  | @handed _ worker rest _ _ _ hw =>
      obtain ⟨timed, ht⟩ := hman.waiting _ (by rw [hw]; exact List.mem_cons_self)
      exact (h.setPhase (b := .holding task) hman ht rfl rfl).congr rfl rfl
  | queued | stranded => exact h.congr rfl rfl
  | @rescued => exact Counted.launch (p := p.enqueue task) (h.congr rfl rfl) none

theorem Move.counted (hm : Move p act q events) (h : p.Counted) (hman : p.Manned) : q.Counted := by
  have hmoved {u : Pool τ σ} {w : Nat} {a b : WorkerPhase τ σ} (hw : p.phase? w = some a) (ha : a.isRetired = false) (hb : b.isRetired = false)
      (hl : u.live = p.live) (hu : u.workers = (p.setPhase w b).workers) : u.Counted :=
    (h.setPhase hman hw ha hb).congr hl hu
  cases hm with
  | submitted ha => exact ha.counted h hman
  | dismissed hw | retired hw | left hw => exact h.retire hman hw rfl
  | cutOff hw => rcases hw with ⟨hw, -⟩ | hw <;> exact hmoved hw rfl rfl rfl rfl
  | sought hw | took hw | waits hw | expired hw | stayed hw | recorded hw | heeded hw | entered hw | barred hw
  | advanced hw | hooked hw | finished hw | completed hw | released hw => exact hmoved hw rfl rfl rfl rfl
  | halted | drained | interrupted | reported | awaits | abandoned | rechecked => exact h.congr rfl rfl

theorem Reachable.counted [DecidableEq τ] (h : Reachable history p) : p.Counted :=
  h.invariant (P := fun _ p => p.Counted) (fun _ _ => rfl) fun hreach ih hm => hm.counted ih hreach.manned

theorem Counted.live_pos (h : p.Counted) (hw : p.phase? w = some a) (ha : a.isRetired = false) : 0 < p.live := by
  rw [h]
  exact tally_pos hw (by simp [ha])

theorem Counted.deserted {P : WorkerPhase τ σ → Bool} (h : p.Counted) (hlive : p.live = 0)
    (hP : ∀ a, P a = true → a.isRetired = false) : p.tally P = 0 := by
  have hle := tally_le (P := P) (Q := fun a => !a.isRetired) (fun a ha => by simp [hP a ha]) p
  rw [← h, hlive] at hle
  omega

/-! ## Queues -/

/-- Nothing is queued after the queue was taken back. -/
def Cleared (p : Pool τ σ) : Prop := p.stop = none ∨ p.stop = some .halted ∨ p.queue = []

theorem Cleared.queue {stage : StopStage τ} (h : p.Cleared) (hs : p.stop = some stage) (hne : stage ≠ .halted) :
    p.queue = [] := by
  rcases h with h | h | h
  · rw [hs] at h; cases h
  · rw [hs] at h; cases h; exact absurd rfl hne
  · exact h

theorem Move.cleared (hm : Move p act q events) (h : p.Cleared) : q.Cleared := by
  have hkept {u : Pool τ σ} (hs : u.stop = p.stop) (hq : u.queue = p.queue) : u.Cleared := by
    rw [Cleared, hs, hq]; exact h
  cases hm with
  | submitted ha =>
      cases ha with
      | stopped | unstaffed | full => exact h
      | started hs | handed hs | queued hs | rescued hs | stranded hs =>
          have hstop : p.stop = none := by simpa [isStopping] using hs
          exact .inl hstop
  | @took w timed task rest _ hq =>
      rcases h with h | h | h
      · exact .inl h
      · exact .inr (.inl h)
      · rw [h] at hq; cases hq
  | halted => exact .inr (.inl rfl)
  | drained => exact .inr (.inr rfl)
  | interrupted hs | awaits hs | abandoned hs => exact .inr (.inr (h.queue hs (by simp)))
  | reported hs => rcases hs with hs | hs <;> exact .inr (.inr (h.queue hs (by simp)))
  | _ => exact hkept rfl rfl

theorem Reachable.cleared (h : Reachable history p) : p.Cleared :=
  h.invariant (P := fun _ p => p.Cleared) (fun _ _ => .inl rfl) fun _ ih hm => hm.cleared ih

end Pool

end SingleFlight
