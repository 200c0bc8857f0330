import SingleFlight.Proofs.Pool.Attendance
import SingleFlight.Proofs.Pool.Bookkeeping
import SingleFlight.Proofs.Pool.Filling

/-!
# Workers that leave after a wait

A worker fixes whether its wait is limited when it looks for work, from the number of workers at that time, and leaves
later, when the number may be another one. So two workers above the core size can both leave, the second one from the
core. Core workers are safe from this only where no wait is limited at all.
-/

namespace SingleFlight

variable {τ σ : Type}

/-- The worker waits for a limited time, is about to, or has waited in vain. -/
def WorkerPhase.isTimed : WorkerPhase τ σ → Bool
  | listening timed => timed
  | waiting timed => timed
  | expired => true
  | _ => false

namespace Pool

variable {p q r : Pool τ σ} {act : PoolAct τ σ} {events : List (PoolEvent τ)} {u v w k n : Nat} {a b c : WorkerPhase τ σ}
  {history later : List (Moment τ σ)} {settings : PoolSettings} {task t : τ}

/-- No worker that leaves after a wait brings a pool with these settings below its core size. -/
def CoreKept (τ σ : Type) (settings : PoolSettings) : Prop :=
  ∀ (name : String) (history : List (Moment τ σ)) (p q : Pool τ σ) (w : Nat) (events : List (PoolEvent τ)),
    Run (.create name settings) history p → p.isStopping = false → p.step (.work w .decide) = some (q, events) →
    .retired w ∈ events → settings.core ≤ p.live → settings.core ≤ q.live

/-! ## Without limited waits -/

def Untimed (p : Pool τ σ) : Prop := ∀ w a, p.phase? w = some a → a.isTimed = false

theorem Untimed.setPhase (h : p.Untimed) (hb : b.isTimed = false) : (p.setPhase w b).Untimed := fun v c hv => by
  rcases phase?_setPhase_cases hv with ⟨-, rfl⟩ | ⟨-, hv⟩
  · exact hb
  · exact h v c hv

theorem Untimed.launch (h : p.Untimed) (first : Option τ) : (p.launch first).Untimed := fun v c hv => by
  rw [phase?_launch] at hv
  rcases Option.or_eq_some_iff.mp hv with hv | ⟨-, hv⟩
  · exact h v c hv
  · split at hv
    · cases hv
      cases first <;> rfl
    · cases hv

theorem Admission.untimed {refusal : Option IoError} (ha : Admission p task refusal q events) (h : p.Untimed) :
    q.Untimed := by
  cases ha with
  | stopped | unstaffed | full | queued | stranded => exact h
  | started => exact h.launch _
  | rescued => exact Untimed.launch (p := p.enqueue task) h none
  | @handed _ worker rest => exact h.setPhase (w := worker) (b := .holding task) rfl

/-- While a worker that looks for work is not to wait for a limited time, none does. -/
theorem Move.untimed (hm : Move p act q events) (h : p.Untimed)
    (hno : (p.settings.coreTimeout || decide (p.settings.core < p.live)) = false) : q.Untimed := by
  have hset {w : Nat} {b : WorkerPhase τ σ} {u : Pool τ σ} (hu : u.workers = (p.setPhase w b).workers)
      (hb : b.isTimed = false) : u.Untimed := fun v c hv =>
    h.setPhase (w := w) hb v c (by rw [phase?, ← hu]; exact hv)
  cases hm with
  | submitted ha => exact ha.untimed h
  | sought => exact hset rfl hno
  | @waits w timed hw => exact hset (b := .waiting timed) rfl (h w (.listening timed) hw)
  | expired hw => cases h _ _ hw
  | dismissed | retired | left => exact hset (b := .retired) rfl rfl
  | took | cutOff | stayed | recorded | heeded | entered | barred | advanced | hooked | finished | completed | released =>
      exact hset rfl rfl
  | halted | drained | interrupted | reported | awaits | abandoned | rechecked => exact h

theorem Run.fixed (h : Run p history q) : Fixed p q := by
  induction h with
  | start => exact ⟨rfl, rfl⟩
  | step _ hs ih =>
      have hf := (step_move hs).fixed
      exact ⟨hf.settings.trans ih.settings, hf.capacity.trans ih.capacity⟩

/-- Where as many workers are core workers as there may be, nobody waits for a limited time. -/
theorem untimed_of_core_eq_max {name : String} (hvalid : settings.validate = .ok ()) (hcore : settings.coreTimeout = false)
    (hmax : settings.core = settings.max) (h : Run (.create name settings : Pool τ σ) history p) : p.Untimed := by
  induction h with
  | start => exact fun w a hw => by simp [phase?, Pool.create] at hw
  | @step history p act q events hrun hs ih =>
      have hsettings : p.settings = settings := hrun.fixed.settings
      have hlive := Reachable.bounded ⟨name, settings, hvalid, hrun⟩
      refine (step_move hs).untimed ih ?_
      rw [hsettings] at hlive ⊢
      simp [hcore]
      omega

/-! ## Two workers on their way out -/

/-- Some steps lead from one pool to the other. -/
def Leads (p q : Pool τ σ) : Prop := ∃ later, Run p later q

theorem Via.leads {P : PoolAct τ σ → Bool} (h : Via P p q) : Leads p q := by
  obtain ⟨later, hrun, -⟩ := h
  exact ⟨later, hrun⟩

/-- Two workers of a pool, with the task `t` queued `n` times. -/
structure Pair (s : PoolSettings) (t : τ) (live n u v : Nat) (a b : WorkerPhase τ σ) (p : Pool τ σ) : Prop where
  settings : p.settings = s
  going : p.stop = none
  isOpen : p.channel.isOpen = true
  queue : p.queue = List.replicate n t
  live : p.live = live
  first : p.phase? u = some a
  second : p.phase? v = some b
  apart : u ≠ v

theorem Pair.swap (h : Pair settings t k n u v a b p) : Pair settings t k n v u b a p :=
  ⟨h.settings, h.going, h.isOpen, h.queue, h.live, h.second, h.first, h.apart.symm⟩

theorem Pair.post (h : Pair settings t k n u v a b p) : Post settings t k n u a p :=
  ⟨h.settings, h.going, h.isOpen, h.queue, h.live, h.first⟩

theorem Post.pair (h : Post settings t k n u a p) (hv : p.phase? v = some b) (hne : u ≠ v) :
    Pair settings t k n u v a b p :=
  ⟨h.settings, h.going, h.isOpen, h.queue, h.live, h.phase, hv, hne⟩

/-- What the first worker does by itself leaves the second one where it is. -/
theorem Pair.advances {m : Nat} (h : Pair settings t k n u v a b p)
    (hfirst : ∃ q, Via (PoolAct.isOf u) p q ∧ Post settings t k m u c q) :
    ∃ q, Via PoolAct.isOrdinary p q ∧ Pair settings t k m u v c b q := by
  obtain ⟨q, hq, hpost⟩ := hfirst
  exact ⟨q, hq.ordinary, hpost.pair ((hq.phase?_ne h.apart.symm).trans h.second) h.apart⟩

theorem Pair.retires (h : Pair settings t k 0 u v .expired b p) :
    ∃ q, p.step (.work u .decide) = some (q, [.retired u]) ∧ Pair settings t (k - 1) 0 u v .retired b q := by
  obtain ⟨q, hs, hpost⟩ := h.post.retires
  exact ⟨q, hs, hpost.pair (((step_move hs).phase?_ne h.apart.symm).trans h.second) h.apart⟩

/-- One worker above the core size, and two whose waits ran out. -/
theorem two_expired (name : String) (t : τ) (stage : σ) (hcore : settings.core ≠ 0) (hmax : settings.core < settings.max) :
    ∃ p : Pool τ σ, Leads (.create name settings) p ∧
      Pair settings t (settings.core + 1) 0 1 (settings.core + 1) .expired .expired p := by
  have habove : settings.coreTimeout = true ∨ settings.core < settings.core + 1 := .inr (Nat.lt_succ_self _)
  obtain ⟨p, to₀, hfilled⟩ : ∃ p : Pool τ σ, Via PoolAct.isOrdinary (.create name settings) p ∧
      Filled settings t (settings.core + 1) settings.capacity p := filled_above_core name t hcore hmax
  have h := (hfilled.post (w := 1) (by omega)).pair (hfilled.post (w := settings.core + 1) (by omega)).phase (by omega)
  obtain ⟨p₁, to₁, h⟩ := h.advances (h.post.works stage)
  obtain ⟨p₂, to₂, h⟩ := h.swap.advances (h.swap.post.works stage)
  obtain ⟨p₃, to₃, h⟩ := h.advances (h.post.clears stage habove)
  obtain ⟨p₄, to₄, h⟩ := h.swap.advances (h.swap.post.clears stage habove)
  obtain ⟨p₅, to₅, h⟩ := h.advances h.post.expires
  obtain ⟨p₆, to₆, h⟩ := h.swap.advances h.swap.post.expires
  exact ⟨p₆, (to₀.trans (to₁.trans (to₂.trans (to₃.trans (to₄.trans (to₅.trans to₆)))))).leads, h.swap⟩

/-- Core workers are safe from leaving after a wait only if there are none, or if there are no other workers: two workers
above the core size can both find that they may leave. -/
theorem core_kept_iff [Inhabited τ] [Inhabited σ] (hvalid : settings.validate = .ok ()) (hcore : settings.coreTimeout = false) :
    CoreKept τ σ settings ↔ settings.core = 0 ∨ settings.core = settings.max := by
  constructor
  · intro hkept
    by_contra hnot
    have hmax := PoolSettings.max_of_validate hvalid
    obtain ⟨p, ⟨history, hrun⟩, h⟩ : ∃ p : Pool τ σ, Leads (.create "pool" settings) p ∧
        Pair settings default (settings.core + 1) 0 1 (settings.core + 1) .expired .expired p :=
      two_expired "pool" default default (by omega) (by omega)
    obtain ⟨q, hs, h⟩ := h.retires
    obtain ⟨r, hs', h'⟩ := h.swap.retires
    have hlive : settings.core ≤ r.live := hkept "pool" _ q r _ _ (hrun.step hs) (by rw [isStopping, h.going]; rfl) hs'
      List.mem_cons_self (by rw [h.live]; omega)
    rw [h'.live] at hlive
    omega
  · rintro (hzero | hmax) name history p q w events hrun hgoing hs hr hlive
    · omega
    · have huntimed := untimed_of_core_eq_max hvalid hcore hmax hrun
      cases step_move hs with
      | retired hw => cases huntimed _ _ hw
      | stayed hw => cases huntimed _ _ hw

theorem acts_of_replay : ∀ {acts : List (PoolAct τ σ)} {history history' : List (Moment τ σ)} {p q : Pool τ σ},
    replay acts history p = some (history', q) → history'.reverse.map Moment.act = history.reverse.map Moment.act ++ acts
  | [], _, _, _, _, hr => by cases hr; simp
  | act :: acts, history, history', p, q, hr => by
      obtain ⟨⟨next, events⟩, -, hr⟩ := Option.bind_eq_some_iff.mp hr
      simpa using acts_of_replay hr

/-- The steps of a worker around a task that it has in hand. -/
def working (w : Nat) : List (PoolAct τ Unit) :=
  [ .work w .record, .work w .heed, .work w (.enter () none), .work w (.finish () none), .work w (.complete none),
    .work w .release ]

/-- With one core worker and room for another one, both leave after their waits. -/
theorem both_workers_leave : ∃ settings : PoolSettings, settings.validate = .ok () ∧ settings.coreTimeout = false ∧
    settings.core = 1 ∧ ¬CoreKept Nat Unit settings := by
  let settings : PoolSettings := { PoolSettings.serial with max := 2 }
  have hvalid : settings.validate = .ok () := rfl
  refine ⟨settings, hvalid, rfl, rfl, fun hkept => ?_⟩
  have := (core_kept_iff hvalid rfl).mp hkept
  revert this
  decide

/-- Two workers with one task each and one task in the queue: both wait once the queue is empty, and the second one to
leave brings the pool below its core size of one. -/
theorem core_worker_left : ∃ (settings : PoolSettings) (history : List (Moment Nat Unit)) (p q : Pool Nat Unit),
    settings.validate = .ok () ∧ settings.coreTimeout = false ∧ settings.core = 1 ∧
    history.reverse.map Moment.act =
      [.submit 0 none, .submit 1 none, .submit 2 none] ++ working 2 ++ working 1 ++
        [.work 1 .seek, .work 1 .receive] ++ working 1 ++
        [.work 2 .seek, .work 2 .receive, .work 1 .seek, .work 1 .receive, .work 1 .expire, .work 2 .expire,
          .work 1 .decide] ∧
    Run (.create "pool" settings) history p ∧ p.isStopping = false ∧
    p.step (.work 2 .decide) = some (q, [.retired 2]) ∧ settings.core ≤ p.live ∧ ¬settings.core ≤ q.live := by
  let settings : PoolSettings := { PoolSettings.serial with max := 2, capacity := 1 }
  let acts : List (PoolAct Nat Unit) :=
    [.submit 0 none, .submit 1 none, .submit 2 none] ++ working 2 ++ working 1 ++
      [.work 1 .seek, .work 1 .receive] ++ working 1 ++
      [.work 2 .seek, .work 2 .receive, .work 1 .seek, .work 1 .receive, .work 1 .expire, .work 2 .expire,
        .work 1 .decide]
  have hrun : (replay acts [] (create "pool" settings)).map (fun x => (x.2.isStopping, x.2.live,
      (x.2.step (.work 2 .decide)).map fun y => (y.1.live, y.2))) = some (false, 1, some (0, [.retired 2])) := by
    decide +kernel
  obtain ⟨⟨history, p⟩, hr, hx⟩ := Option.map_eq_some_iff.mp hrun
  simp only [Prod.mk.injEq, Option.map_eq_some_iff, Prod.exists] at hx
  obtain ⟨hgoing, hlive, q, events, hs, hlive', rfl⟩ := hx
  exact ⟨settings, history, p, q, rfl, rfl, rfl, acts_of_replay hr, replay_run .start hr, hgoing, hs, by rw [hlive]; decide,
    by rw [hlive']; decide⟩

end Pool

end SingleFlight
