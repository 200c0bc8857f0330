import SingleFlight.Proofs.Pool.Timeouts

/-!
# Waits of no length

An idle worker whose wait is limited to no time at all leaves at once, and the next task starts another one. The check of
the settings refuses exactly those with which a worker can come to such a wait. Settings with a limit of zero are accepted
only where every worker is a core worker and none of them leaves, so that no wait is limited.
-/

namespace SingleFlight.Pool

variable {τ σ : Type} {settings : PoolSettings} {p : Pool τ σ} {history : List (Moment τ σ)} {t : τ} {a : WorkerPhase τ σ}
  {w : Nat}

/-- In whatever order tasks are submitted and the workers of a pool with these settings get on, none of them waits with
a limit of zero. -/
def NeverSpins (τ σ : Type) (settings : PoolSettings) : Prop :=
  ∀ (name : String) (p : Pool τ σ) (w : Nat), Via PoolAct.isOrdinary (.create name settings) p →
    p.phase? w = some (.waiting true) → p.settings.keepAlive.isZero = false

/-! ## Valid settings -/

/-- With valid settings whoever is in a wait with a limit, on the way to it or just out of it has some time. -/
theorem keepAlive_of_isTimed {name : String} (hvalid : settings.validate = .ok ())
    (h : Run (.create name settings) history p) (hw : p.phase? w = some a) (ha : a.isTimed = true) :
    p.settings.keepAlive.isZero = false := by
  by_contra hzero
  rw [h.fixed.settings, Bool.not_eq_false] at hzero
  obtain ⟨-, -, -, hlimit⟩ := PoolSettings.validate_iff.mp hvalid
  obtain ⟨htimeout, hmax⟩ := hlimit hzero
  have huntimed : a.isTimed = false := untimed_of_core_eq_max hvalid htimeout hmax h w a hw
  rw [ha] at huntimed
  cases huntimed

/-! ## A worker in a limited wait -/

/-- Without core workers the first task is queued, and a worker is started to look for it. -/
theorem Filled.rescued (h : Filled settings t 0 0 p) (hcore : settings.core = 0) (hcapacity : 0 < settings.capacity) :
    ∃ q, Via PoolAct.isOrdinary p q ∧ Post settings t 1 1 1 .seeking q := by
  have hbuffer : p.channel.buffer = [] := h.queue
  have hs : p.step (.submit t none) = some ((p.enqueue t).launch none, [.started p.nextWorker, .accepted t]) := by
    simp [step, submit, isStopping, h.going, h.settings, h.live, hcore, Channel.send, h.isOpen, h.nobody, hbuffer,
      h.capacity, hcapacity, spawn, Pool.enqueue]
  refine ⟨_, (Via.refl _ p).snoc hs rfl, ⟨h.settings, h.going, h.isOpen, ?_, congrArg (· + 1) h.live, ?_⟩⟩
  · show p.queue ++ [t] = _
    rw [h.queue]
    rfl
  · have hnext : (p.enqueue t).nextWorker = 1 := h.next
    have hnobody : (p.enqueue t).phase? 1 = none := h.phase 1
    rw [phase?_launch, hnobody, hnext]
    rfl

/-- Where some wait is to be limited, a worker comes to look for work that is to wait with a limit. -/
theorem seeks_timed (name : String) (t : τ) (stage : σ) (hcapacity : 0 < settings.capacity)
    (htimed : settings.coreTimeout = true ∨ settings.core < settings.max) :
    ∃ (p : Pool τ σ) (k n : Nat), Via PoolAct.isOrdinary (.create name settings) p ∧ Post settings t k n 1 .seeking p ∧
      (settings.coreTimeout = true ∨ settings.core < k) := by
  by_cases hcore : settings.core = 0
  · obtain ⟨p, hp, hpost⟩ := (Filled.create (σ := σ) name settings t).rescued hcore hcapacity
    exact ⟨p, 1, 1, hp, hpost, .inr (by omega)⟩
  · -- a core worker is enough if it leaves as well, otherwise there has to be one worker more
    obtain ⟨p, k, n, hp, hfilled, hk, htimed⟩ : ∃ (p : Pool τ σ) (k n : Nat),
        Via PoolAct.isOrdinary (.create name settings) p ∧ Filled settings t k n p ∧ 1 ≤ k ∧
          (settings.coreTimeout = true ∨ settings.core < k) := by
      rcases htimed with htimeout | hmax
      · obtain ⟨p, hp, hfilled⟩ := filled_core (σ := σ) name settings t settings.core (Nat.le_refl _)
        exact ⟨p, _, _, hp, hfilled, Nat.pos_of_ne_zero hcore, .inl htimeout⟩
      · obtain ⟨p, hp, hfilled⟩ := filled_above_core (σ := σ) name t hcore hmax
        exact ⟨p, _, _, hp, hfilled, Nat.succ_pos _, .inr (Nat.lt_succ_self _)⟩
    obtain ⟨q, hq, hpost⟩ := (hfilled.post (w := 1) ⟨Nat.le_refl _, hk⟩).works stage
    exact ⟨q, k, n, hp.trans hq.ordinary, hpost, htimed⟩

/-- Where some wait is to be limited, a worker comes to wait with a limit. -/
theorem waits_timed (name : String) (t : τ) (stage : σ) (hcapacity : 0 < settings.capacity)
    (htimed : settings.coreTimeout = true ∨ settings.core < settings.max) :
    ∃ p : Pool τ σ, Via PoolAct.isOrdinary (.create name settings) p ∧ p.settings = settings ∧
      p.phase? 1 = some (.waiting true) := by
  obtain ⟨p, k, n, hp, hpost, hk⟩ := seeks_timed name t stage hcapacity htimed
  obtain ⟨q, hq, hpost⟩ := hpost.clears stage hk
  exact ⟨q, hp.trans hq.ordinary, hpost.settings, hpost.phase⟩

/-! ## The check of the settings -/

/-- Settings of sensible sizes are accepted exactly if no worker of a pool with them ever waits with a limit of zero. If
they are accepted, no worker is on the way to such a wait or out of it either, be the pool stopped or out of threads. -/
theorem valid_iff_never_spins [Inhabited τ] [Inhabited σ] (hmax : 1 ≤ settings.max) (hcore : settings.core ≤ settings.max)
    (hcapacity : 1 ≤ settings.capacity) :
    (settings.validate = .ok () ↔ NeverSpins τ σ settings) ∧
    (settings.validate = .ok () → ∀ (name : String) (history : List (Moment τ σ)) (p : Pool τ σ) (w : Nat)
      (a : WorkerPhase τ σ), Run (.create name settings) history p → p.phase? w = some a → a.isTimed = true →
      p.settings.keepAlive.isZero = false) := by
  refine ⟨⟨?_, fun hnever => ?_⟩, fun hvalid name history p w a h hw ha => keepAlive_of_isTimed hvalid h hw ha⟩
  · rintro hvalid name p w ⟨history, hrun, -⟩ hw
    exact keepAlive_of_isTimed hvalid hrun hw rfl
  · refine PoolSettings.validate_iff.mpr ⟨hmax, hcore, hcapacity, fun hzero => ?_⟩
    by_contra hnot
    have htimed : settings.coreTimeout = true ∨ settings.core < settings.max := by
      cases htimeout : settings.coreTimeout with
      | true => exact .inl rfl
      | false => exact .inr (Nat.lt_of_le_of_ne hcore fun heq => hnot ⟨htimeout, heq⟩)
    obtain ⟨p, hp, hsettings, hw⟩ := waits_timed (τ := τ) (σ := σ) "pool" default default hcapacity htimed
    have hlasting := hnever "pool" p 1 hp hw
    rw [hsettings, hzero] at hlasting
    cases hlasting

/-- With a limit of zero, a single core worker that stays never waits for it, and one that leaves does. -/
theorem lone_worker_spins_if_it_leaves : ∃ stays leaves : PoolSettings,
    stays.keepAlive.isZero = true ∧ leaves = { stays with coreTimeout := true } ∧
    stays.validate = .ok () ∧ NeverSpins Nat Unit stays ∧
    leaves.validate = .error (.invalidConfig SettingsFault.noKeepAlive.message) ∧ ¬NeverSpins Nat Unit leaves := by
  let stays : PoolSettings := { PoolSettings.serial with keepAlive := ⟨0⟩ }
  let leaves : PoolSettings := { stays with coreTimeout := true }
  have hstays : stays.validate = .ok () := rfl
  have hleaves : leaves.validate = .error (.invalidConfig SettingsFault.noKeepAlive.message) := rfl
  refine ⟨stays, leaves, rfl, rfl, hstays, ?_, hleaves, fun hnever => ?_⟩
  · exact (valid_iff_never_spins (by decide) (by decide) (by decide)).1.mp hstays
  · have hvalid : leaves.validate = .ok () := (valid_iff_never_spins (by decide) (by decide) (by decide)).1.mpr hnever
    rw [hleaves] at hvalid
    cases hvalid

end SingleFlight.Pool
