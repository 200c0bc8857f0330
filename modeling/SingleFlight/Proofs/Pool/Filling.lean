import SingleFlight.Proofs.Pool.Runs

/-!
# Filling a pool and working it off

Submissions start workers up to the core size, fill the queue and start workers above the core size once it is full. A
worker on its own works off what is queued, and then it waits: for a limited time if there are more workers than core
workers, or if core workers leave as well.
-/

namespace SingleFlight

variable {τ σ : Type}

/-- A submission that gets a thread if it needs one, or a step of a worker. -/
def PoolAct.isOrdinary : PoolAct τ σ → Bool
  | submit _ refusal => refusal.isNone
  | work _ _ => true
  | stop _ => false

/-- A step of the worker. -/
def PoolAct.isOf (worker : Nat) : PoolAct τ σ → Bool
  | work w _ => w = worker
  | _ => false

namespace Pool

variable {p q r : Pool τ σ} {act : PoolAct τ σ} {events : List (PoolEvent τ)} {v w k n : Nat} {a c : WorkerPhase τ σ}
  {settings : PoolSettings} {t : τ} {P Q : PoolAct τ σ → Bool}

/-! ## Runs by steps of one kind -/

/-- Steps of the given kind lead from one pool to the other. -/
def Via (P : PoolAct τ σ → Bool) (p q : Pool τ σ) : Prop :=
  ∃ later, Run p later q ∧ ∀ moment ∈ later, P moment.act = true

theorem Via.refl (P : PoolAct τ σ → Bool) (p : Pool τ σ) : Via P p p := ⟨[], .start, fun _ h => nomatch h⟩

theorem Via.snoc (h : Via P p q) (hs : q.step act = some (r, events)) (hact : P act = true) : Via P p r := by
  obtain ⟨later, hrun, hlater⟩ := h
  exact ⟨_, hrun.step hs, List.forall_mem_cons.mpr ⟨hact, hlater⟩⟩

theorem Via.trans (h : Via P p q) (k : Via P q r) : Via P p r := by
  obtain ⟨_, hrun, hlater⟩ := h
  obtain ⟨_, hrun', hlater'⟩ := k
  exact ⟨_, hrun.trans hrun', List.forall_mem_append.mpr ⟨hlater', hlater⟩⟩

theorem Via.mono (h : Via P p q) (hPQ : ∀ act, P act = true → Q act = true) : Via Q p q := by
  obtain ⟨later, hrun, hlater⟩ := h
  exact ⟨later, hrun, fun moment hmem => hPQ _ (hlater moment hmem)⟩

theorem Via.ordinary (h : Via (PoolAct.isOf w) p q) : Via PoolAct.isOrdinary p q :=
  h.mono fun act hact => by
    cases act with
    | work => rfl
    | submit | stop => cases hact

theorem Move.phase?_ne {step : WorkerAct σ} (hm : Move p (.work w step) q events) (hv : v ≠ w) :
    q.phase? v = p.phase? v := by
  cases hm <;> exact phase?_setPhase_ne hv

/-- What a worker does leaves the others where they are. -/
theorem Via.phase?_ne (h : Via (PoolAct.isOf w) p q) (hv : v ≠ w) : q.phase? v = p.phase? v := by
  obtain ⟨later, hrun, hlater⟩ := h
  induction hrun with
  | start => rfl
  | @step history p' act q events _ hs ih =>
      obtain ⟨hact, hrest⟩ := List.forall_mem_cons.mp hlater
      cases act with
      | work u step =>
          obtain rfl : u = w := by simpa [PoolAct.isOf] using hact
          exact ((step_move hs).phase?_ne hv).trans (ih hrest)
      | submit | stop => cases hact

/-! ## Filling a pool -/

/-- The workers from one to `k` hold the task `t`, and it is queued `n` times. -/
structure Filled (s : PoolSettings) (t : τ) (k n : Nat) (p : Pool τ σ) : Prop where
  settings : p.settings = s
  capacity : p.channel.capacity = s.capacity
  going : p.stop = none
  isOpen : p.channel.isOpen = true
  queue : p.queue = List.replicate n t
  nobody : p.channel.waiting = []
  live : p.live = k
  next : p.nextWorker = k + 1
  phase : ∀ w, p.phase? w = if 1 ≤ w ∧ w ≤ k then some (.holding t) else none

theorem Filled.create (name : String) (settings : PoolSettings) (t : τ) :
    Filled settings t 0 0 (create name settings : Pool τ σ) :=
  ⟨rfl, rfl, rfl, rfl, rfl, rfl, rfl, rfl, fun w => by
    rw [if_neg (by omega)]
    rfl⟩

theorem Filled.launch (h : Filled settings t k n p) : Filled settings t (k + 1) n (p.launch (some t)) where
  settings := h.settings
  capacity := h.capacity
  going := h.going
  isOpen := h.isOpen
  queue := h.queue
  nobody := h.nobody
  live := congrArg (· + 1) h.live
  next := congrArg (· + 1) h.next
  phase w := by
    rw [phase?_launch, h.phase, h.next]
    by_cases hold : 1 ≤ w ∧ w ≤ k
    · simp [hold, Nat.le_succ_of_le hold.2]
    · by_cases hw : w = k + 1
      · simp [hw, firstPhase, Nat.not_succ_le_self]
      · have hnew : ¬(1 ≤ w ∧ w ≤ k + 1) := by omega
        simp [hold, hw, hnew]

/-- A submission starts a worker below the core size, and above it once the queue is full. -/
theorem Filled.start (h : Filled settings t k n p)
    (hroom : k < settings.core ∨ n = settings.capacity ∧ k < settings.max) :
    ∃ q, Via PoolAct.isOrdinary p q ∧ Filled settings t (k + 1) n q := by
  have hlen : p.channel.buffer.length = n := by rw [show p.channel.buffer = _ from h.queue, List.length_replicate]
  have hs : p.step (.submit t none) = some (p.launch (some t), [.started p.nextWorker, .accepted t]) := by
    simp only [step, submit, isStopping, h.going, h.settings, h.live, Option.isSome_none, Bool.false_eq_true, if_false,
      Option.some.injEq]
    by_cases hcore : k < settings.core
    · rw [if_pos hcore]; rfl
    · obtain ⟨hfull, hmax⟩ := hroom.resolve_left hcore
      rw [if_neg hcore]
      simp [Channel.send, h.isOpen, h.nobody, hlen, h.capacity, hfull, hmax, spawn]
  exact ⟨p.launch (some t), (Via.refl _ p).snoc hs rfl, h.launch⟩

theorem Filled.enqueue (h : Filled settings t k n p) (hcore : settings.core ≤ k) (hk : k ≠ 0) (hn : n < settings.capacity) :
    ∃ q, Via PoolAct.isOrdinary p q ∧ Filled settings t k (n + 1) q := by
  have hlen : p.channel.buffer.length = n := by rw [show p.channel.buffer = _ from h.queue, List.length_replicate]
  have hs : p.step (.submit t none) = some (p.enqueue t, [.accepted t]) := by
    have hnot : ¬k < settings.core := by omega
    simp [step, submit, isStopping, h.going, h.settings, h.live, hnot, Channel.send, h.isOpen, h.nobody, hlen, h.capacity,
      hn, hk, Pool.enqueue]
  have hqueue : (p.enqueue t).queue = List.replicate (n + 1) t := by
    show p.queue ++ [t] = _
    rw [h.queue, ← List.replicate_succ']
  exact ⟨p.enqueue t, (Via.refl _ p).snoc hs rfl,
    ⟨h.settings, h.capacity, h.going, h.isOpen, hqueue, h.nobody, h.live, h.next, h.phase⟩⟩

/-- Core workers are started one by one. -/
theorem filled_core (name : String) (settings : PoolSettings) (t : τ) : ∀ k ≤ settings.core, ∃ p : Pool τ σ,
    Via PoolAct.isOrdinary (.create name settings) p ∧ Filled settings t k 0 p := by
  intro k
  induction k with
  | zero => exact fun _ => ⟨_, .refl _ _, .create name settings t⟩
  | succ k ih =>
      intro hk
      obtain ⟨p, hp, hfilled⟩ := ih (by omega)
      obtain ⟨q, hq, hfilled'⟩ := hfilled.start (.inl hk)
      exact ⟨q, hp.trans hq, hfilled'⟩

theorem Filled.full (h : Filled settings t settings.core 0 p) (hcore : settings.core ≠ 0) :
    ∀ n ≤ settings.capacity, ∃ q, Via PoolAct.isOrdinary p q ∧ Filled settings t settings.core n q := by
  intro n
  induction n with
  | zero => exact fun _ => ⟨p, .refl _ p, h⟩
  | succ n ih =>
      intro hn
      obtain ⟨q, hq, hfilled⟩ := ih (by omega)
      obtain ⟨r, hr, hfilled'⟩ := hfilled.enqueue (Nat.le_refl _) hcore hn
      exact ⟨r, hq.trans hr, hfilled'⟩

/-- Submissions bring a pool one worker above its core size. -/
theorem filled_above_core (name : String) (t : τ) (hcore : settings.core ≠ 0) (hmax : settings.core < settings.max) :
    ∃ p : Pool τ σ, Via PoolAct.isOrdinary (.create name settings) p ∧
      Filled settings t (settings.core + 1) settings.capacity p := by
  obtain ⟨p, hp, hfilled⟩ : ∃ p : Pool τ σ, Via PoolAct.isOrdinary (.create name settings) p ∧
      Filled settings t settings.core 0 p := filled_core name settings t settings.core (Nat.le_refl _)
  obtain ⟨q, hq, hfilled⟩ := hfilled.full hcore settings.capacity (Nat.le_refl _)
  obtain ⟨r, hr, hfilled⟩ := hfilled.start (.inr ⟨rfl, hmax⟩)
  exact ⟨r, (hp.trans hq).trans hr, hfilled⟩

/-! ## One worker -/

/-- A worker of a pool with so many workers, with the task `t` queued `n` times. -/
structure Post (s : PoolSettings) (t : τ) (live n w : Nat) (a : WorkerPhase τ σ) (p : Pool τ σ) : Prop where
  settings : p.settings = s
  going : p.stop = none
  isOpen : p.channel.isOpen = true
  queue : p.queue = List.replicate n t
  live : p.live = live
  phase : p.phase? w = some a

theorem Filled.post (h : Filled settings t k n p) (hw : 1 ≤ w ∧ w ≤ k) : Post settings t k n w (.holding t) p where
  settings := h.settings
  going := h.going
  isOpen := h.isOpen
  queue := h.queue
  live := h.live
  phase := by rw [h.phase, if_pos hw]

/-- What a step of the worker leaves alone. -/
theorem Post.moves {channel : Channel τ} {running : List (Nat × τ)} {live m : Nat} (h : Post settings t k n w a p)
    (hopen : channel.isOpen = true) (hqueue : channel.buffer = List.replicate m t) :
    Post settings t live m w c (({ p with channel, running, live } : Pool τ σ).setPhase w c) where
  settings := h.settings
  going := h.going
  isOpen := hopen
  queue := hqueue
  live := rfl
  phase := phase?_setPhase_self (p := { p with channel, running, live }) h.phase

theorem Via.own {step : WorkerAct σ} (hs : p.step (.work w step) = some (q, events)) : Via (PoolAct.isOf w) p q :=
  (Via.refl _ p).snoc hs (decide_eq_true rfl)

theorem Post.passes (step : WorkerAct σ) (c : WorkerPhase τ σ) (running : List (Nat × τ)) (h : Post settings t k n w a p)
    (hs : p.step (.work w step) = some (({ p with running } : Pool τ σ).setPhase w c, events)) :
    ∃ q, Via (PoolAct.isOf w) p q ∧ Post settings t k n w c q :=
  ⟨_, .own hs, h.live ▸ h.moves h.isOpen h.queue⟩

/-- A worker with a task runs it and looks for the next one. -/
theorem Post.works (stage : σ) (h : Post settings t k n w (.holding t) p) :
    ∃ q, Via (PoolAct.isOf w) p q ∧ Post settings t k n w .seeking q := by
  obtain ⟨p₁, to₁, h⟩ := h.passes .record (.recorded t) _ (by simp only [step, work, h.phase]; rfl)
  obtain ⟨p₂, to₂, h⟩ := h.passes .heed (.ready t) _ (by simp only [step, work, h.phase]; rfl)
  obtain ⟨p₃, to₃, h⟩ := h.passes (.enter stage none) (.working t stage) _ (by simp only [step, work, h.phase]; rfl)
  obtain ⟨p₄, to₄, h⟩ := h.passes (.finish stage none) (.worked t none stage) _ (by simp only [step, work, h.phase]; rfl)
  obtain ⟨p₅, to₅, h⟩ := h.passes (.complete none) (.leaving t) _ (by simp only [step, work, h.phase]; rfl)
  obtain ⟨p₆, to₆, h⟩ := h.passes .release .seeking _ (by simp only [step, work, h.phase]; rfl)
  exact ⟨p₆, to₁.trans (to₂.trans (to₃.trans (to₄.trans (to₅.trans to₆)))), h⟩

/-- A worker that looks for work is to wait for a limited time above the core size, and if core workers leave as well. -/
theorem Post.seeks (htimed : settings.coreTimeout = true ∨ settings.core < k) (h : Post settings t k n w .seeking p) :
    ∃ q, Via (PoolAct.isOf w) p q ∧ Post settings t k n w (.listening true) q := by
  have hlimit : (p.settings.coreTimeout || decide (p.settings.core < p.live)) = true := by
    rw [h.settings, h.live]
    simpa using htimed
  have hgoing : p.isStopping = false := by rw [isStopping, h.going]; rfl
  have hs : p.step (.work w .seek) = some (p.setPhase w (.listening true), []) := by
    simp only [step, work, h.phase, hgoing, Bool.false_eq_true, if_false, hlimit]
  exact h.passes .seek (.listening true) p.running hs

theorem Post.takes (h : Post settings t k (n + 1) w (.listening true) p) :
    ∃ q, Via (PoolAct.isOf w) p q ∧ Post settings t k n w (.holding t) q := by
  have hbuffer : p.channel.buffer = t :: List.replicate n t := h.queue
  have hs : p.step (.work w .receive) = some
      (({ p with channel := { p.channel with buffer := List.replicate n t } } : Pool τ σ).setPhase w (.holding t), []) := by
    simp [step, work, h.phase, Channel.receive, hbuffer]
  exact ⟨_, .own hs, h.live ▸ h.moves h.isOpen rfl⟩

/-- A worker that finds the queue empty waits. -/
theorem Post.waits (h : Post settings t k 0 w (.listening true) p) :
    ∃ q, Via (PoolAct.isOf w) p q ∧ Post settings t k 0 w (.waiting true) q := by
  have hbuffer : p.channel.buffer = [] := h.queue
  have hs : p.step (.work w .receive) = some
      (({ p with channel := { p.channel with waiting := p.channel.waiting ++ [w] } } : Pool τ σ).setPhase w
        (.waiting true), []) := by
    simp [step, work, h.phase, Channel.receive, hbuffer, h.isOpen]
  exact ⟨_, .own hs, h.live ▸ h.moves h.isOpen h.queue⟩

theorem Post.expires (h : Post settings t k 0 w (.waiting true) p) :
    ∃ q, Via (PoolAct.isOf w) p q ∧ Post settings t k 0 w .expired q := by
  have hs : p.step (.work w .expire) = some
      (({ p with channel := p.channel.withdraw w } : Pool τ σ).setPhase w .expired, []) := by
    simp [step, work, h.phase]
  exact ⟨_, .own hs, h.live ▸ h.moves h.isOpen h.queue⟩

/-- A worker whose wait ran out leaves an empty queue. -/
theorem Post.retires (h : Post settings t k 0 w .expired p) :
    ∃ q, p.step (.work w .decide) = some (q, [.retired w]) ∧ Post settings t (k - 1) 0 w .retired q := by
  have hempty : p.queue = [] := h.queue
  refine ⟨(p.retire w).1, by simp [step, work, h.phase, hempty, retire], ?_⟩
  exact h.live ▸ h.moves h.isOpen h.queue

/-- A worker that is to wait for a limited time works off the queue and then waits. -/
theorem Post.clears (stage : σ) (htimed : settings.coreTimeout = true ∨ settings.core < k) : ∀ {n : Nat} {p : Pool τ σ},
    Post settings t k n w .seeking p → ∃ q, Via (PoolAct.isOf w) p q ∧ Post settings t k 0 w (.waiting true) q := by
  intro n
  induction n with
  | zero =>
      intro p h
      obtain ⟨p₁, to₁, h⟩ := h.seeks htimed
      obtain ⟨p₂, to₂, h⟩ := h.waits
      exact ⟨p₂, to₁.trans to₂, h⟩
  | succ n ih =>
      intro p h
      obtain ⟨p₁, to₁, h⟩ := h.seeks htimed
      obtain ⟨p₂, to₂, h⟩ := h.takes
      obtain ⟨p₃, to₃, h⟩ := h.works stage
      obtain ⟨p₄, to₄, h⟩ := ih h
      exact ⟨p₄, to₁.trans (to₂.trans (to₃.trans to₄)), h⟩

end Pool

end SingleFlight
