import SingleFlight.Proofs.System

/-!
# No request gets stuck

While a scheduler with a pool is open, its loop alive and no submission refused, every flight in the air has
somebody who carries it on: it waits to be run, one worker runs it, or its outcome is on the way back to the owner.
-/

namespace SingleFlight

open Scheduler

section

variable [Payloads]

/-- The call is about to look at the flight that was handed back. -/
@[simp] def Call.finishes (n : Nat) : Call → Bool
  | .finishing m => m = n
  | _ => false

/-- The worker has completed the flight, or left it, and has not handed it back. -/
@[simp] def WorkerPhase.isReturning (n : Nat) : WorkerPhase Nat WorkStage → Bool
  | .worked m _ .unbinding => m = n
  | .worked m _ .returning => m = n
  | .worked m _ .posting => m = n
  | _ => false

theorem WorkerPhase.isReturning_idle {n : Nat} (a : WorkerPhase Nat WorkStage) (h : a.isEngaged = false) :
    a.isReturning n = false := by
  cases a <;> first | rfl | cases h

namespace Scheduler

variable {s s' u : Scheduler} {p q : Pool Nat WorkStage} {act : SchedulerAct} {c : Caller} {n m : Nat}
  {f g : Flight} {events : List SchedulerEvent}

/-- How often a hand-back of the flight is still to come, or is being looked at by the owner. -/
def returns (s : Scheduler) (n : Nat) : Nat :=
  s.pool.elim 0 (·.tally (WorkerPhase.isReturning n)) + (s.callsOf .owner).countP (Call.finishes n)

/-- How often a step runs the hand-back of the flight. -/
def handedBack (n : Nat) : SchedulerAct → Nat
  | .run job => [job].count (.handBack n)
  | _ => 0

/-- How often the events post a hand-back of the flight. -/
def posts (n : Nat) (events : List SchedulerEvent) : Nat := events.countP fun e => e.job? == some (.handBack n)

/-! ## Hand-backs on their way -/

/-- A turn hands the hand-backs of a flight on, or drops one whose flight is not the one of its action or has no
outcome. -/
theorem Turn.returns {cs cs' : List Call} (h : Turn s act c cs cs' events) (n : Nat) :
    cs'.countP (Call.finishes n) + posts n events = cs.countP (Call.finishes n) + handedBack n act ∨
      ∃ f, s.flights[n]? = some f ∧ (s.flightOf? f.action ≠ some n ∨ f.take.2 = none) := by
  cases h with
  | @stale _ _ m f _ hf hs =>
      by_cases e : m = n
      · subst e; exact .inr ⟨f, hf, .inl hs⟩
      · left; simp [posts, handedBack, SchedulerEvent.job?, e]
  | @awaiting _ _ m f _ hf _ ht =>
      by_cases e : m = n
      · subst e; exact .inr ⟨f, hf, .inr ht⟩
      · left; simp [posts, handedBack, SchedulerEvent.job?, e]
  | @landed m =>
      left
      by_cases e : m = n <;> simp [posts, handedBack, e]
  | _ => left; simp [posts, handedBack, SchedulerEvent.job?]

theorem Running.posts {stage : RunStage} {next : RunStep} (h : Running s c m f stage g next events) :
    posts n events = 0 := by
  cases h <;> rfl

/-- A worker that completes the flight, or leaves it, has its hand-back still to come or posts it. -/
theorem Labour.returns {w : Nat} {name : String} {a b : WorkerPhase Nat WorkStage}
    (h : Labour s w name n f act a g b events) (hopen : s.isClosed = false) (hd : g.phase = .completed) :
    f.phase = .completed ∧ (a.isReturning n).toNat = 0 ∧ handedBack n act = 0
      ∨ 1 ≤ (b.isReturning n).toNat + Scheduler.posts n events := by
  cases h with
  | bound => exact .inl ⟨hd, by simp, rfl⟩
  | ran hr =>
      cases hr with
      | refused hc | dropped hc => rw [hc] at hd; cases hd
      | exhausted | uncopied | mistyped | called => cases hd
      | retried => exact .inl ⟨hd, by simp, rfl⟩
      | stored => right; simp
  | answered => exact .inl ⟨hd, by simp, rfl⟩
  | failed | unbound | returned => right; simp
  | withheld hc => rw [hc] at hopen; cases hopen
  | posted => right; simp [Scheduler.posts, SchedulerEvent.job?]

theorem Labour.returns_apart {w : Nat} {name : String} {a b : WorkerPhase Nat WorkStage}
    (h : Labour s w name m f act a g b events) (hne : n ≠ m) :
    (a.isReturning n).toNat = (b.isReturning n).toNat ∧ handedBack n act = 0 := by
  have hne : m ≠ n := hne.symm
  cases h with
  | ran hr => cases hr <;> simp [hne, handedBack]
  | _ => simp [hne, handedBack]

theorem Turn.handedBack {cs cs' : List Call} (h : Turn s act c cs cs' events) (hc : c ≠ .owner) :
    handedBack n act = 0 := by
  cases h <;> first | rfl | exact absurd rfl hc

theorem returns_setCalls {cs : List Call} (h : cs.countP (Call.finishes n) = (s.callsOf c).countP (Call.finishes n))
    (hu : u.calls = s.calls) (hpool : u.pool = s.pool) : (u.setCalls c cs).returns n = s.returns n := by
  have hcs : cs.countP (Call.finishes n) = (u.callsOf c).countP (Call.finishes n) := by rw [callsOf_congr hu]; exact h
  simp only [returns, pool_setCalls, hpool, countP_setCalls .owner hcs, callsOf_congr hu]

theorem returns_undisturbed (hp : s.pool = some p) (hq : u.pool = some q) (h : Pool.Undisturbed p q)
    (hcalls : u.calls = s.calls) : u.returns n = s.returns n := by
  have := h.tally (P := WorkerPhase.isReturning n) fun a ha => a.isReturning_idle ha
  simp only [returns, hp, hq, Option.elim_some, this, callsOf_congr hcalls]

/-- While the scheduler is open, a flight that is completed is the one of its action and has its outcome. -/
theorem Sane.awaited (h : s.Sane) (hopen : s.isClosed = false) (hf : s.flights[n]? = some f)
    (hdone : f.phase = .completed) : s.flightOf? f.action = some n ∧ f.take.2.isSome = true := by
  have hin := h.charted.complete hopen n f hf (by simp [hdone])
  exact ⟨h.charted.flightOf? hin, by simpa [Flight.take, hdone] using h.settled n f hf hdone⟩

theorem Labour.returns_standing {w : Nat} {a b : WorkerPhase Nat WorkStage}
    (hl : Labour s w (p.workerName w) m f act a g b events) (hman : p.Manned) (hp : s.pool = some p)
    (hw : p.phase? w = some a) (hf : s.flights[m]? = some f) (hopen : s.isClosed = false)
    (hu : u = { s.setFlight m g with pool := some (p.setPhase w b) })
    (hd : (u.standing n).phase = some .completed) :
    (s.standing n).phase = some .completed ∧ s.returns n + handedBack n act ≤ u.returns n + posts n events
      ∨ 1 ≤ u.returns n + posts n events := by
  have htally := Pool.tally_setPhase (P := WorkerPhase.isReturning n) (b := b) hman.distinct hw
  have hret : s.returns n = p.tally (WorkerPhase.isReturning n) + (s.callsOf .owner).countP (Call.finishes n) := by
    simp [Scheduler.returns, hp]
  have hret' : u.returns n
      = (p.setPhase w b).tally (WorkerPhase.isReturning n) + (s.callsOf .owner).countP (Call.finishes n) := hu ▸ rfl
  have hflight : u.flights[n]? = if n = m then some g else s.flights[n]? := hu ▸ flights_setFlight hf g n
  by_cases e : n = m
  · subst e
    have hdone : g.phase = .completed := by simpa [standing, hflight] using hd
    rcases hl.returns hopen hdone with ⟨hdone', ha, hact⟩ | hone
    · exact .inl ⟨by simp [standing, hf, hdone'], by omega⟩
    · right
      have ha : (a.isReturning n).toNat ≤ p.tally (WorkerPhase.isReturning n) := by
        cases ha : a.isReturning n with
        | false => exact Nat.zero_le _
        | true => exact Pool.tally_pos hw ha
      omega
  · obtain ⟨hab, hact⟩ := hl.returns_apart e
    exact .inl ⟨by simpa [standing, hflight, e] using hd, by omega⟩

/-- While the scheduler is open, a flight that is completed keeps its hand-backs or gets one. -/
theorem Move.returns (hm : Move s act s' events) (h : s.Sane) (hopen : s'.isClosed = false) (n : Nat)
    (hd : (s'.standing n).phase = some .completed) :
    (s.standing n).phase = some .completed ∧ s.returns n + handedBack n act ≤ s'.returns n + posts n events
      ∨ 1 ≤ s'.returns n + posts n events := by
  have hstay (hphase : (s'.standing n).phase = (s.standing n).phase) (hret : s'.returns n = s.returns n)
      (hact : handedBack n act = 0) :
      (s.standing n).phase = some .completed ∧ s.returns n + handedBack n act ≤ s'.returns n + posts n events
        ∨ 1 ≤ s'.returns n + posts n events :=
    .inl ⟨hphase ▸ hd, by omega⟩
  have hclosed {k : Closing} (hk : s.closing = some k) : s.isClosed ≠ false := by
    rw [h.regular.closing (by simp [hk])]; simp
  cases hm with
  | unknown | mismatched => exact hstay rfl rfl rfl
  | late _ _ _ hc | ignored _ hc | shutAgain _ hc => rw [hc] at hopen; cases hopen
  | @turned _ c cs _ ht =>
      by_cases hc : c = .owner
      · subst hc
        rcases ht.returns n with hret | ⟨f, hf, hlost⟩
        · refine .inl ⟨hd, ?_⟩
          simp only [returns, pool_setCalls, callsOf_setCalls_self]
          omega
        · have hdone : f.phase = .completed := by simpa [standing, hf] using hd
          obtain ⟨hcurrent, hsome⟩ := h.awaited hopen hf hdone
          rcases hlost with hlost | hlost
          · exact absurd hcurrent hlost
          · rw [hlost] at hsome; cases hsome
      · refine hstay rfl ?_ (ht.handedBack hc)
        simp only [returns, pool_setCalls, callsOf_setCalls, Ne.symm hc, ↓reduceIte]
  | @launched _ _ _ input r _ hcs =>
      refine hstay ?_ (returns_setCalls (countP_callsOf hcs rfl (by simp)) rfl rfl) rfl
      simp only [standing, flights_setCalls, flights_concat] at hd ⊢
      split at hd
      · cases hd
      · rename_i hn; rw [if_neg hn]
  | @superseded _ _ _ input f _ hcs hf =>
      exact hstay (map_setFlight Flight.phase (g := f.renewed input) hf rfl n)
        (returns_setCalls (countP_callsOf hcs rfl rfl) rfl rfl) rfl
  | @rearmed _ _ m _ _ _ hcs hf =>
      by_cases e : n = m
      · subst e; simp [standing, flights_setFlight hf] at hd
      · exact hstay (by simp [standing, flights_setFlight hf, e])
          (returns_setCalls (countP_callsOf hcs rfl (by simp)) rfl rfl) rfl
  | submitted hcs _ hp ha =>
      have htally := (ha.undisturbed (h.regular.manned _ hp)).tally (P := WorkerPhase.isReturning n)
        fun a h => a.isReturning_idle h
      have hcs' := countP_setCalls (s := s) .owner (countP_callsOf (P := Call.finishes n) hcs rfl rfl)
      refine hstay rfl ?_ rfl
      simp only [returns, hp, pool_setCalls, Option.elim_some, htally]
      exact congrArg _ hcs'
  | @collected _ _ m f _ _ hcs hf =>
      by_cases e : n = m
      · subst e; simp [standing, flights_setFlight hf, Flight.landed] at hd
      · exact hstay (by simp [standing, flights_setFlight hf, e])
          (returns_setCalls (countP_callsOf hcs (by simp [Ne.symm e]) (by simp)) rfl rfl) rfl
  | inlined _ hs => cases h.pooled.symm.trans hs
  | ranInline hcs | took hcs => cases h.regular.orderly.suited h.pooled hcs
  | worked _ hp hw hf hl => exact hl.returns_standing (h.regular.manned _ hp) hp hw hf hopen rfl hd
  | warned _ hp hw =>
      exact hstay (map_modify (fun _ => by rfl) _ n)
        (returns_undisturbed hp rfl (.setPhase (h.regular.manned _ hp).distinct hw rfl rfl) rfl) rfl
  | idled hact hp hq hr =>
      refine hstay rfl (returns_undisturbed hp rfl (Pool.Quiet.work (h.regular.manned _ hp) hr hq).undisturbed rfl) ?_
      rcases hact with rfl | ⟨-, r, rfl⟩ <;> rfl
  | shut => cases hopen
  | abandoned _ hp hs => exact absurd hopen (by rw [h.regular.stopping _ hp (by simp [Pool.isStopping, hs])]; simp)
  | halted _ hk | alarmed _ hk | reported _ hk | undone _ hk | gaveUp _ hk => exact absurd hopen (hclosed hk)

end Scheduler

namespace System

variable {sys sys' : System} {act : SystemAct} {history : List Moment} {events : List SchedulerEvent} {n : Nat}

/-- No submission to the pool was refused. -/
def NeverRefused (history : List Moment) : Prop := ∀ moment ∈ history, ¬ Refused moment.events

/-- How often a hand-back of the flight is still to come, in the loop, or being looked at by the owner. -/
def returns (sys : System) (n : Nat) : Nat :=
  sys.scheduler.returns n + sys.loop.queue.count (.handBack n)

/-- What carries the flights on while the scheduler is open. -/
structure Carrying (history : List Moment) (sys : System) : Prop where
  carried : sys.scheduler.isClosed = false → NeverRefused history → ∀ n, (sys.scheduler.standing n).Carried
  returned : sys.scheduler.isClosed = false → sys.loop.isClosed = false →
    ∀ n, (sys.scheduler.standing n).phase = some .completed → 1 ≤ sys.returns n

/-- A step takes the hand-back that it runs from the loop and adds those that it posts. -/
theorem count_posted {a : SchedulerAct} {l l' : OwnerLoop Posted} (hy : l.yield a = some l')
    (hl : l.isClosed = false) (events : List SchedulerEvent) (n : Nat) :
    ∃ rest, l.queue.count (.handBack n) = rest + handedBack n a ∧
      (l'.postAll (events.filterMap SchedulerEvent.job?)).queue.count (.handBack n) = rest + posts n events := by
  obtain ⟨hclosed, hq⟩ := OwnerLoop.yield_cases hy
  refine ⟨l'.queue.count (.handBack n), ?_, ?_⟩
  · rcases hq with ⟨hact, hq⟩ | ⟨job, rfl, hq⟩
    · cases a with
      | run job => exact absurd rfl (hact job)
      | _ => rw [hq]; rfl
    · rw [hq, List.count_cons]
      simp [handedBack, List.count_singleton]
  · rw [OwnerLoop.queue_postAll _ l' (hclosed.trans hl), List.count_append, List.count_filterMap]
    rfl

theorem Carrying.step (h : Carrying history sys) (hsane : sys.scheduler.Sane)
    (hs : sys.step act = some (sys', events)) : Carrying ({ act, events } :: history) sys' := by
  rcases step_cases hs with ⟨rfl, rfl, rfl⟩ | ⟨a, loop, rfl, hloop, hm, hposted⟩
  · refine ⟨fun hopen hnever => h.carried hopen fun m hm => hnever m (List.mem_cons_of_mem _ hm), ?_⟩
    intro _ hl; cases hl
  · refine ⟨fun hopen hnever n => ?_, fun hopen hl n hd => ?_⟩
    · have hopen' : ¬ sys'.scheduler.isClosed = true := by simp [hopen]
      exact (hm.shift hsane.regular hsane.pooled n).carried hopen' (hnever _ List.mem_cons_self) (hsane.sound n)
        (h.carried (hm.keeps.opened hopen) (fun m hm => hnever m (List.mem_cons_of_mem _ hm)) n)
    · have hl' : sys.loop.isClosed = false := by
        rw [hposted, OwnerLoop.isClosed_postAll] at hl
        exact (OwnerLoop.yield_cases hloop).1.symm.trans hl
      obtain ⟨rest, hqueue, hqueue'⟩ := count_posted hloop hl' events n
      unfold returns
      rw [hposted]
      rcases hm.returns hsane hopen n hd with ⟨hd', hret⟩ | hret
      · have := h.returned (hm.keeps.opened hopen) hl' n hd'
        unfold returns at this
        omega
      · omega

theorem Reachable.carrying (h : Reachable history sys) (hpool : sys.scheduler.isSynchronous = false) :
    Carrying history sys := by
  refine h.sane_invariant (fun sys hb => ?_) (fun _ hsane ih => ih.step hsane) hpool
  have hnone (n : Nat) : (sys.scheduler.standing n).phase = none := by simp [standing, hb.flights]
  refine ⟨fun _ _ n => ?_, fun _ _ n hd => ?_⟩
  · simp only [Standing.Carried, hnone]
  · rw [hnone] at hd; cases hd

/-! ## Everybody is carried -/

theorem countP_of_isFree {P : Call → Bool} (h : sys.scheduler.Sane) (hfree : sys.scheduler.isFree .owner = true)
    (hP : ∀ x, P x = true → x.isOutside = false) : (sys.scheduler.callsOf .owner).countP P = 0 := by
  rw [List.countP_eq_zero]
  intro x hx hPx
  have := h.regular.orderly.outside hfree x hx
  rw [hP x hPx] at this; cases this

theorem submits_inside (n : Nat) (x : Call) (h : x.submits n = true) : x.isOutside = false := by
  cases x <;> first | rfl | cases h

theorem finishes_inside (n : Nat) (x : Call) (h : x.finishes n = true) : x.isOutside = false := by
  cases x <;> first | rfl | cases h

theorem tally_taskless {p : Pool Nat WorkStage} (hidle : ∀ x ∈ p.workers, x.phase.task? = none)
    {P : WorkerPhase Nat WorkStage → Bool} (hP : ∀ a, a.task? = none → P a = false) : p.tally P = 0 := by
  rw [Pool.tally, List.countP_eq_zero]
  intro x hx hPx
  rw [hP _ (hidle x hx)] at hPx; cases hPx

/-- Who carries a flight on in each phase: about to be submitted, queued, or taken and not yet running, and all
this once; run by one worker; with a hand-back to come. -/
def IsCarried (sys : System) (p : Pool Nat WorkStage) (n : Nat) : FlightPhase → Prop
  | .queued =>
    (sys.scheduler.callsOf .owner).countP (Call.submits n) + p.pending n + p.tally (WorkerPhase.isStarting n) = 1 ∧
      p.tally (WorkerPhase.isInside n) = 0
  | .running =>
    (sys.scheduler.callsOf .owner).countP (Call.submits n) + p.pending n = 0 ∧
      p.tally (WorkerPhase.isStarting n) + p.tally (WorkerPhase.isInside n) = 1
  | .completed =>
    1 ≤ p.tally (WorkerPhase.isReturning n) + (sys.scheduler.callsOf .owner).countP (Call.finishes n)
      + sys.loop.queue.count (.handBack n)
  | .closed => False

theorem Carrying.isCarried {id : ActionId} {p : Pool Nat WorkStage} (h : Carrying history sys)
    (hsane : sys.scheduler.Sane) (hopen : sys.scheduler.isClosed = false) (hloop : sys.loop.isClosed = false)
    (hnever : NeverRefused history) (hp : sys.scheduler.pool = some p) (hn : (id, n) ∈ sys.scheduler.inFlight) :
    ∃ f, sys.scheduler.flights[n]? = some f ∧ IsCarried sys p n f.phase := by
  obtain ⟨f, -, hf, -, hphase, -⟩ := hsane.charted.charted id n hn
  have hsound := hsane.sound n
  have hcarry := h.carried hopen hnever n
  have hret := h.returned hopen hloop n
  have hst : (sys.scheduler.standing n).phase = some f.phase := by simp [standing, hf]
  rw [standing_some hp hf] at hsound hcarry
  refine ⟨f, hf, ?_⟩
  cases hph : f.phase with
  | queued => simp only [Standing.Sound, Standing.Carried, IsCarried, hph] at hsound hcarry ⊢; omega
  | running => simp only [Standing.Sound, Standing.Carried, IsCarried, hph] at hsound hcarry ⊢; omega
  | completed => simpa [IsCarried, returns, Scheduler.returns, hp] using hret (by rw [hst, hph])
  | closed => exact absurd hph hphase

/-- Workers without tasks, an empty queue and an empty loop carry nothing, nor does an owner outside of the
scheduler. -/
theorem not_isCarried {p : Pool Nat WorkStage} {phase : FlightPhase} (hs : sys.scheduler.Sane)
    (howner : sys.scheduler.isFree .owner = true) (hqueue : p.queue = [])
    (hworkers : ∀ x ∈ p.workers, x.phase.task? = none) (hjobs : sys.loop.queue = []) :
    ¬ IsCarried sys p n phase := by
  have hsub := countP_of_isFree hs howner (submits_inside n)
  have hfin := countP_of_isFree hs howner (finishes_inside n)
  have hheld := tally_taskless hworkers (P := fun a => decide (a.held? = some n)) fun a ha => by
    cases a <;> first | rfl | cases ha
  have hpend : p.pending n = 0 := by
    unfold Pool.pending
    rw [hqueue, hheld]; rfl
  have hstart := tally_taskless hworkers (P := WorkerPhase.isStarting n) fun a ha => by
    cases a <;> first | rfl | cases ha
  have hin := tally_taskless hworkers (P := WorkerPhase.isInside n) fun a ha => by
    cases a <;> first | rfl | cases ha
  have hret := tally_taskless hworkers (P := WorkerPhase.isReturning n) fun a ha => by
    cases a <;> first | rfl | cases ha
  intro hc
  cases phase with
  | queued => simp only [IsCarried, hsub, hpend, hstart] at hc; omega
  | running => simp only [IsCarried, hstart, hin] at hc; omega
  | completed => simp only [IsCarried, hret, hfin, hjobs, List.count_nil] at hc; omega
  | closed => exact hc

/-- While a scheduler with a pool is open, its loop alive and no submission refused, every flight in the air is
carried on, and none of them is closed. The owner carries nothing while it is not inside of the scheduler; if then
the pool has no task and the loop no job, no flight is in the air. -/
theorem every_flight_carried (h : Reachable history sys) (hpool : sys.scheduler.isSynchronous = false)
    (hopen : sys.scheduler.isClosed = false) (hloop : sys.loop.isClosed = false) (hnever : NeverRefused history) :
    (∀ id n, (id, n) ∈ sys.scheduler.inFlight → ∃ f p, sys.scheduler.flights[n]? = some f ∧
      sys.scheduler.pool = some p ∧ IsCarried sys p n f.phase) ∧
    (sys.scheduler.isFree .owner = true → ∀ n, (sys.scheduler.callsOf .owner).countP (Call.submits n) = 0 ∧
      (sys.scheduler.callsOf .owner).countP (Call.finishes n) = 0) ∧
    (sys.scheduler.isFree .owner = true →
      (∀ p, sys.scheduler.pool = some p → p.queue = [] ∧ ∀ x ∈ p.workers, x.phase.task? = none) →
      sys.loop.queue = [] → sys.scheduler.inFlight = []) := by
  have hsane := h.sane hpool
  have hc := h.carrying hpool
  obtain ⟨p, hp⟩ : ∃ p, sys.scheduler.pool = some p := by
    cases hp : sys.scheduler.pool with
    | none => simp [isSynchronous, hp] at hpool
    | some p => exact ⟨p, rfl⟩
  refine ⟨fun id n hn => ?_, fun howner n => ?_, fun howner hidle hjobs => ?_⟩
  · obtain ⟨f, hf, hcarried⟩ := hc.isCarried hsane hopen hloop hnever hp hn
    exact ⟨f, p, hf, hp, hcarried⟩
  · exact ⟨countP_of_isFree hsane howner (submits_inside n), countP_of_isFree hsane howner (finishes_inside n)⟩
  · rw [List.eq_nil_iff_forall_not_mem]
    rintro ⟨id, n⟩ hn
    obtain ⟨f, -, hcarried⟩ := hc.isCarried hsane hopen hloop hnever hp hn
    exact not_isCarried hsane howner (hidle p hp).1 (hidle p hp).2 hjobs hcarried

end System

end

namespace System

/-- The only worker is inside of the run of the first request, and nobody else has the flight in hand. -/
theorem first_flight_carried : ∃ history sys p f, Reachable history sys ∧ sys.scheduler.isSynchronous = false ∧
    sys.scheduler.isClosed = false ∧ sys.loop.isClosed = false ∧ NeverRefused history ∧
    sys.scheduler.flights[0]? = some f ∧ sys.scheduler.pool = some p ∧ IsCarried sys p 0 f.phase := by
  let start : List SystemAct :=
    [ .thread (.apply .owner ⟨0⟩ (.string "a")), .thread (.advance .owner none), .thread (.advance .owner none),
      .thread (.advance (.worker 1) none), .thread (.advance (.worker 1) none), .thread (.advance (.worker 1) none),
      .thread (.advance (.worker 1) none) ]
  obtain ⟨history, sys, hr, hpool, hopen, hloop, hplain, hin⟩ : ∃ history sys,
      replay start [] (small true) = some (history, sys) ∧ sys.scheduler.isSynchronous = false ∧
      sys.scheduler.isClosed = false ∧ sys.loop.isClosed = false ∧
      (history.all fun m => m.events.all fun e => !e.isRefusal) = true ∧ (⟨0⟩, 0) ∈ sys.scheduler.inFlight :=
    ⟨_, _, rfl, rfl, rfl, rfl, rfl, .head _⟩
  have hreach := replay_reachable (small_reachable true) hr
  have hnever : NeverRefused history := by
    rintro moment hm ⟨e, he, href⟩
    have := List.all_eq_true.mp (List.all_eq_true.mp hplain moment hm) e he
    rw [href] at this; cases this
  obtain ⟨f, p, hf, hp, hc⟩ := (every_flight_carried hreach hpool hopen hloop hnever).1 ⟨0⟩ 0 hin
  exact ⟨history, sys, p, f, hreach, hpool, hopen, hloop, hnever, hf, hp, hc⟩

end System

end SingleFlight
