import SingleFlight.Proofs.Pool.Partition
import SingleFlight.Proofs.Scheduler.Workers

/-!
# Workers and the flights that they are bound to

What a move does to the binding of a flight, and to a worker between the hooks for it. A worker inside of a flight is
the one that the flight is bound to.
-/

namespace SingleFlight

/-- A running flight keeps a worker inside of it. -/
theorem Shift.driven {closed refused : Prop} {st st' : Standing} (h : Shift closed refused st st')
    (hd : st.phase = some .running → 1 ≤ st.starting + st.inside) (hrun : st'.phase = some .running) :
    1 ≤ st'.starting + st'.inside := by
  cases h with
  | kept e => rw [e] at hrun ⊢; exact hd hrun
  | launched _ h' | stored _ _ h' | declined _ h' | dropped _ h' | rearmed _ h' | landed _ h' =>
      rw [h'] at hrun; cases hrun
  | refused _ h' | entered h' => have := hd (h' ▸ hrun); omega
  | begun | retried => omega
  | shed _ h' =>
      rcases h' with h' | ⟨-, h'⟩
      · have := hd (h' ▸ hrun); omega
      · rw [h'] at hrun; cases hrun

variable [Payloads]

/-- The worker that an event binds to the flight. -/
def SchedulerEvent.binds? (n : Nat) : SchedulerEvent → Option String
  | .bound m _ name => if m = n then some name else none
  | _ => none

/-- The worker that is bound to the flight. -/
def boundTo? (n : Nat) (events : List SchedulerEvent) : Option String := events.findSome? (·.binds? n)

/-- A newer input queues the flight again. -/
def Requeued (n : Nat) (events : List SchedulerEvent) : Prop :=
  ∃ id input generation, .rearmed n id input generation ∈ events

/-- The worker is between the hooks for the flight. -/
def WorkerPhase.serves (n : Nat) : WorkerPhase Nat WorkStage → Bool
  | .working m _ => m = n
  | .worked m _ _ => m = n
  | _ => false

/-- The worker is past the step that takes its binding back. -/
def WorkerPhase.isPast (n : Nat) : WorkerPhase Nat WorkStage → Bool
  | .worked m _ .returning => m = n
  | .worked m _ .posting => m = n
  | _ => false

theorem WorkerPhase.isEngaged_of_serves {n : Nat} {a : WorkerPhase Nat WorkStage} (h : a.serves n = true) :
    a.isEngaged = true := by
  cases a <;> first | rfl | cases h

theorem Flight.unbind_cases (f : Flight) (name : String) :
    f.worker = some name ∧ (f.phase = .completed ∨ f.phase = .closed) ∧ (f.unbind name).worker = none ∨
      ¬ (f.worker = some name ∧ (f.phase = .completed ∨ f.phase = .closed)) ∧ f.unbind name = f := by
  unfold unbind
  split
  · rename_i h
    simp only [Bool.and_eq_true, Bool.or_eq_true, decide_eq_true_eq] at h
    exact .inl ⟨h.1, h.2, rfl⟩
  · rename_i h
    simp only [Bool.and_eq_true, Bool.or_eq_true, decide_eq_true_eq] at h
    exact .inr ⟨h, rfl⟩

theorem Pool.workerName_inj {p : Pool Nat WorkStage} {v w : Nat} (h : p.workerName v = p.workerName w) : v = w := by
  have hrepr : v.repr = w.repr := by simpa [Pool.workerName] using h
  have := congrArg (fun text => Nat.ofDigitChars 10 text.toList 0) hrepr
  simpa [Nat.repr_eq_ofList_toDigits, Nat.ofDigitChars_ten_toDigits] using this

namespace Scheduler

variable {s s' : Scheduler} {p q : Pool Nat WorkStage} {act : SchedulerAct} {c : Caller} {n m w v : Nat}
  {f g : Flight} {a b : WorkerPhase Nat WorkStage} {events : List SchedulerEvent}

/-- The name of the worker that the flight is bound to. -/
def binding? (s : Scheduler) (n : Nat) : Option String := (s.flights[n]?).bind Flight.worker

theorem binding?_congr (h : (s'.flights[n]?).map Flight.worker = (s.flights[n]?).map Flight.worker) :
    s'.binding? n = s.binding? n := by
  unfold binding?
  cases hf : s.flights[n]? <;> cases hf' : s'.flights[n]? <;> simp_all

/-! ## Events -/

theorem boundTo?_eq_none (h : ∀ e ∈ events, e.binds? n = none) : boundTo? n events = none :=
  List.findSome?_eq_none_iff.mpr h

theorem boundTo?_pooled (pooled : List (PoolEvent Nat)) : boundTo? n (pooled.map .pool) = none := by
  refine boundTo?_eq_none fun e he => ?_
  obtain ⟨_, -, rfl⟩ := List.mem_map.mp he
  rfl

theorem boundTo?_append {l r : List SchedulerEvent} (hl : boundTo? n l = none) (hr : boundTo? n r = none) :
    boundTo? n (l ++ r) = none := by
  simp only [boundTo?, List.findSome?_append] at *
  rw [hl, hr]; rfl

theorem Turn.boundTo? {cs cs' : List Call} (h : Turn s act c cs cs' events) (n : Nat) :
    SingleFlight.boundTo? n events = none := by
  cases h <;> rfl

theorem Running.boundTo? {stage : RunStage} {next : RunStep} (h : Running s c m f stage g next events) (n : Nat) :
    SingleFlight.boundTo? n events = none := by
  cases h <;> rfl

theorem Running.worker {stage : RunStage} {next : RunStep} (h : Running s c n f stage g next events) :
    g.worker = f.worker := by
  cases h <;> rfl

/-! ## Moves -/

/-- `Rebinding s p n events s' q`: what a move does to the binding of a flight. -/
inductive Rebinding (s : Scheduler) (p : Pool Nat WorkStage) (n : Nat) (events : List SchedulerEvent) (s' : Scheduler)
    (q : Pool Nat WorkStage) : Prop
  | kept : s'.binding? n = s.binding? n → boundTo? n events = none → Rebinding s p n events s' q
  | bound {w : Nat} : p.phase? w = some (.ready n) → q.phase? w = some (.working n (.running .starting)) →
      s'.binding? n = some (p.workerName w) → boundTo? n events = some (p.workerName w) →
      Rebinding s p n events s' q
  | released {w : Nat} {panic} : p.phase? w = some (.worked n panic .unbinding) → s.binding? n = some (p.workerName w) →
      s'.binding? n = none → boundTo? n events = none → Rebinding s p n events s' q

theorem binding?_setFlight (hf : s.flights[m]? = some f) :
    (s.setFlight m g).binding? n = if n = m then g.worker else s.binding? n := by
  unfold binding?
  rw [flights_setFlight hf]
  split <;> simp

theorem Labour.rebinding (hl : Labour s w (p.workerName w) m f act a g b events) (hw : p.phase? w = some a)
    (hf : s.flights[m]? = some f) (n : Nat) :
    Rebinding s p n events { s.setFlight m g with pool := some (p.setPhase w b) } (p.setPhase w b) := by
  have hafter : ({ s.setFlight m g with pool := some (p.setPhase w b) } : Scheduler).binding? n
      = if n = m then g.worker else s.binding? n := binding?_setFlight hf
  have hkept (hg : g.worker = f.worker) (he : boundTo? n events = none) :
      Rebinding s p n events { s.setFlight m g with pool := some (p.setPhase w b) } (p.setPhase w b) :=
    .kept (binding?_congr (map_setFlight Flight.worker hf hg n)) he
  cases hl with
  | bound =>
      by_cases e : n = m
      · subst e
        refine .bound hw (Pool.phase?_setPhase_self hw) (hafter.trans (if_pos rfl)) ?_
        simp [boundTo?, SchedulerEvent.binds?]
      · refine .kept (hafter.trans (if_neg e)) ?_
        simp [boundTo?, SchedulerEvent.binds?, Ne.symm e]
  | @ran _ _ _ next _ hr =>
      refine hkept hr.worker (boundTo?_append (hr.boundTo? n) ?_)
      cases next <;> rfl
  | failed => exact hkept (by unfold Flight.fail; split <;> rfl) rfl
  | unbound =>
      by_cases e : n = m
      · subst e
        rcases f.unbind_cases (p.workerName w) with ⟨hbound, -, hnone⟩ | ⟨-, hsame⟩
        · exact .released hw (by simp [binding?, hf, hbound]) (hafter.trans ((if_pos rfl).trans hnone)) rfl
        · exact hkept (by rw [hsame]) rfl
      · exact .kept (hafter.trans (if_neg e)) rfl
  | answered | withheld | returned | posted => exact hkept rfl rfl

theorem Move.rebinding (hm : Move s act s' events) (hp : s.pool = some p) (hq : s'.pool = some q) (n : Nat) :
    Rebinding s p n events s' q := by
  have hkept (h : (s'.flights[n]?).map Flight.worker = (s.flights[n]?).map Flight.worker)
      (he : boundTo? n events = none) : Rebinding s p n events s' q := .kept (binding?_congr h) he
  have hnew {u : Scheduler} {r : Registration} {input : Payload} (hu : u.flights = s.flights ++ [Flight.of r input]) :
      u.binding? n = s.binding? n := by
    unfold binding?
    rw [hu, flights_concat]
    split
    · rename_i e; simp [e, Flight.of]
    · rfl
  cases hm with
  | unknown | mismatched | late | ignored | shutAgain | shut | reported | undone | abandoned => exact hkept rfl rfl
  | turned ht => exact hkept rfl (ht.boundTo? n)
  | launched => exact .kept (hnew rfl) rfl
  | inlined => exact .kept (hnew rfl) rfl
  | @superseded _ _ _ input f _ _ hf => exact hkept (map_setFlight Flight.worker (g := f.renewed input) hf rfl n) rfl
  | @rearmed _ _ _ input f _ _ hf =>
      refine hkept (map_setFlight Flight.worker (f := f) hf ?_ n) rfl
      rfl
  | @collected _ _ _ f _ _ _ hf | @took _ _ _ f _ _ _ hf =>
      exact hkept (map_setFlight Flight.worker (g := f.landed) hf rfl n) rfl
  | submitted =>
      refine hkept rfl (boundTo?_append (boundTo?_pooled _) (boundTo?_eq_none fun e he => ?_))
      unfold submissionAnswer at he
      split at he <;> simp at he <;> rcases he with rfl | rfl <;> rfl
  | @ranInline _ _ _ _ _ _ _ next _ _ hf hr =>
      refine hkept (map_setFlight _ hf hr.worker n) (boundTo?_append (hr.boundTo? n) ?_)
      cases next <;> rfl
  | worked _ hp' hw hf hl =>
      cases hp.symm.trans hp'
      cases hq
      exact hl.rebinding hw hf n
  | warned | alarmed => exact hkept (map_modify (fun _ => by rfl) _ n) rfl
  | idled | halted => exact hkept rfl (boundTo?_pooled _)
  | gaveUp => exact hkept (map_modify (fun _ => by rfl) _ n) rfl

/-- The pool keeps its name, and with it the names of its workers. -/
theorem Move.workerName (hm : Move s act s' events) (hp : s.pool = some p) (hq : s'.pool = some q) (w : Nat) :
    q.workerName w = p.workerName w := by
  have hname : q.name = p.name := by
    cases hm with
    | submitted _ _ hp' ha => cases hp.symm.trans hp'; cases hq; exact ha.name
    | worked _ hp' | warned _ hp' => cases hp.symm.trans hp'; cases hq; rfl
    | idled _ hp' hw => cases hp.symm.trans hp'; cases hq; exact (Pool.work_move hw).name
    | halted _ _ _ hp' hh | alarmed _ _ _ hp' hh => cases hp.symm.trans hp'; cases hq; exact (Pool.halting_move hh).name
    | abandoned _ hp' _ hh => cases hp.symm.trans hp'; cases hq; exact (Pool.halting_move hh).name
    | _ => cases hp.symm.trans hq; rfl
  simp [Pool.workerName, hname]

theorem Labour.own {name : String} {refusal : Option IoError}
    (hl : Labour s v name n f (.advance (.worker w) refusal) a g b events) : w = v := by
  cases hl <;> rfl

/-- A worker inside of a task gets on by its own labour, or it stays where it is and does not take the step. -/
theorem Move.labour_or_stays (hm : Move s act s' events) (hs : s.Sane) (hp : s.pool = some p) (hq : s'.pool = some q)
    (w : Nat) :
    (∃ m f g a b, s.callsOf (.worker w) = [] ∧ p.phase? w = some a ∧ q.phase? w = some b ∧ s.flights[m]? = some f ∧
      Labour s w (p.workerName w) m f act a g b events ∧ s'.flights[m]? = some g) ∨
      ∀ a, a.isEngaged = true → (q.phase? w = some a ↔ p.phase? w = some a) ∧
        (p.phase? w = some a → s.callsOf (.worker w) = [] → ∀ refusal, act ≠ .advance (.worker w) refusal) := by
  rcases hm.labour_or_undisturbed hs hp with ⟨v, m, f, g, a, b, hcs, hv, hf, hl, rfl⟩ | ⟨q', hq', hund, hby⟩
  · cases hq
    by_cases e : w = v
    · subst e
      exact .inl ⟨m, f, g, a, b, hcs, hv, Pool.phase?_setPhase_self hv, hf, hl, (flights_setFlight hf g m).trans (if_pos rfl)⟩
    · refine .inr fun a _ => ⟨by rw [Pool.phase?_setPhase_ne e], fun _ _ refusal hact => e ?_⟩
      subst hact
      exact hl.own
  · cases hq.symm.trans hq'
    exact .inr fun a ha => ⟨hund.phase ha, fun hw hcs => (hby w a hw ha hcs).1⟩

/-! ## Workers inside of flights -/

/-- Who is inside of a flight is bound to it, and somebody is inside of a running flight. -/
structure Tied (s : Scheduler) : Prop where
  bound : ∀ p w n a, s.pool = some p → p.phase? w = some a → (a.isStarting n = true ∨ a.isInside n = true) →
    s.binding? n = some (p.workerName w)
  driven : ∀ n, (s.standing n).phase = some .running → 1 ≤ (s.standing n).starting + (s.standing n).inside

/-- A worker inside of a flight was inside of it before, unless it just started with it. -/
theorem Labour.inside (hl : Labour s w (p.workerName w) m f act a g b events)
    (hb : b.isStarting n = true ∨ b.isInside n = true) :
    m = n ∧ ((a.isStarting n = true ∨ a.isInside n = true) ∧ g.worker = f.worker ∨ g = f.bind (p.workerName w)) := by
  cases hl with
  | bound => exact ⟨by simpa using hb, .inr rfl⟩
  | ran hr =>
      have hsame := hr.worker
      cases hr <;> simp_all
  | answered => simp_all
  | _ => simp at hb

/-- Nobody else can be bound to a flight, or take a binding back, while a worker is inside of it. -/
theorem Tied.stays (h : s.Tied) (hs : s.Sane) (hm : Move s act s' events) (hp : s.pool = some p) (hq : s'.pool = some q)
    (hw : p.phase? w = some a) (ha : a.isStarting n = true ∨ a.isInside n = true) (hw' : q.phase? w = some a) :
    s'.binding? n = some (p.workerName w) := by
  have hbound := h.bound p w n a hp hw ha
  cases hm.rebinding hp hq n with
  | kept he => exact he.trans hbound
  | bound hv _ he =>
      -- the flight would be in two pairs of hands
      have hwaiting := waiting_pos hp hv (n := n) rfl
      have hone := (hs.sound n).le_one
      rcases ha with ha | ha
      · have := starting_pos hp hw ha; omega
      · have := inside_pos hp hw ha; omega
  | released hv he =>
      obtain rfl := Pool.workerName_inj (Option.some.inj (he.symm.trans hbound))
      cases hw.symm.trans hv
      simp at ha

/-- A running flight is bound to the worker inside of it. -/
theorem Tied.running (h : s.Tied) (hs : s.Sane) (hp : s.pool = some p) (hrun : (s.standing n).phase = some .running) :
    ∃ w a, p.phase? w = some a ∧ (a.isStarting n = true ∨ a.isInside n = true) ∧ s.binding? n = some (p.workerName w) := by
  have hman := hs.regular.manned p hp
  have hsome : 0 < p.tally (WorkerPhase.isStarting n) ∨ 0 < p.tally (WorkerPhase.isInside n) := by
    have := h.driven n hrun
    simp only [standing, hp, Option.elim_some] at this
    omega
  obtain ⟨w, a, hw, ha⟩ : ∃ w a, p.phase? w = some a ∧ (a.isStarting n = true ∨ a.isInside n = true) := by
    rcases hsome with hpos | hpos
    · obtain ⟨w, a, hw, ha⟩ := Pool.exists_of_tally hman hpos
      exact ⟨w, a, hw, .inl ha⟩
    · obtain ⟨w, a, hw, ha⟩ := Pool.exists_of_tally hman hpos
      exact ⟨w, a, hw, .inr ha⟩
  exact ⟨w, a, hw, ha, h.bound p w n a hp hw ha⟩

theorem Move.tied (hm : Move s act s' events) (hs : s.Sane) (h : s.Tied) : s'.Tied where
  bound q w n b hq hw hb := by
    obtain ⟨p, hp⟩ := exists_pool hs.pooled
    rw [hm.workerName hp hq]
    rcases hm.labour_or_stays hs hp hq w with ⟨m, f, g, a, b', -, ha, hb', hf, hl, hg⟩ | hstay
    · cases hw.symm.trans hb'
      obtain ⟨rfl, ⟨ha', hsame⟩ | rfl⟩ := hl.inside hb
      · have hbound := h.bound p w m a hp ha ha'
        simp only [binding?, hf, hg, Option.bind_some] at hbound ⊢
        exact hsame.trans hbound
      · simp [binding?, hg, Flight.bind]
    · have hengaged : b.isEngaged = true := by
        rcases hb with hb | hb <;> cases b <;> first | rfl | cases hb
      exact h.stays hs hm hp hq ((hstay b hengaged).1.mp hw) hb hw
  driven n := (hm.shift hs.regular hs.pooled n).driven (h.driven n)

/-! ## Workers that leave their binding behind -/

/-- The worker is about to take its binding back from a flight that is queued again. -/
structure PassesOver (s : Scheduler) (p : Pool Nat WorkStage) (n w : Nat) : Prop where
  pool : s.pool = some p
  idle : s.callsOf (.worker w) = []
  unbinding : ∃ panic, p.phase? w = some (.worked n panic .unbinding)
  bound : s.binding? n = some (p.workerName w)
  queued : (s.standing n).phase = some .queued

/-- The flight is bound to a worker that will not take its binding back any more. -/
structure Abandoned (s : Scheduler) (p : Pool Nat WorkStage) (n w : Nat) : Prop where
  bound : s.binding? n = some (p.workerName w)
  past : ∀ a, p.phase? w = some a → a.serves n = true → a.isPast n = true

theorem Labour.abandoned (hl : Labour s w (p.workerName w) m f act a g b events)
    (hpast : a.serves n = true → a.isPast n = true) (hnone : boundTo? n events = none) (hb : b.serves n = true) :
    b.isPast n = true := by
  cases hl with
  | bound => simp [WorkerPhase.serves] at hb; simp [boundTo?, SchedulerEvent.binds?, hb] at hnone
  | @ran _ _ _ next =>
      have : m = n := by cases next <;> simpa [WorkerPhase.serves] using hb
      simp [WorkerPhase.serves, WorkerPhase.isPast, this] at hpast
  | answered | failed => simp_all [WorkerPhase.serves, WorkerPhase.isPast]
  | unbound | returned => simp_all [WorkerPhase.serves, WorkerPhase.isPast]
  | withheld | posted => cases hb

/-- The flight stays abandoned until another binding. -/
theorem Abandoned.stays (h : s.Abandoned p n w) (hm : Move s act s' events) (hs : s.Sane) (hp : s.pool = some p)
    (hq : s'.pool = some q) (hnone : boundTo? n events = none) : s'.Abandoned q n w where
  bound := by
    rw [hm.workerName hp hq]
    cases hm.rebinding hp hq n with
    | kept he => exact he.trans h.bound
    | bound _ _ _ he => rw [hnone] at he; cases he
    | @released v _ hv he =>
        obtain rfl := Pool.workerName_inj (Option.some.inj (he.symm.trans h.bound))
        cases h.past _ hv (by simp [WorkerPhase.serves])
  past b hb hserves := by
    rcases hm.labour_or_stays hs hp hq w with ⟨m, f, g, a, b', -, ha, hb', -, hl, -⟩ | hstay
    · cases hb.symm.trans hb'
      exact hl.abandoned (h.past a ha) hnone hserves
    · exact h.past b ((hstay b (WorkerPhase.isEngaged_of_serves hserves)).1.mp hb) hserves

theorem PassesOver.abandoned {refusal : Option IoError} (h : s.PassesOver p n w) (hs : s.Sane)
    (hm : Move s (.advance (.worker w) refusal) s' events) (hq : s'.pool = some q) : s'.Abandoned q n w := by
  obtain ⟨panic, hw⟩ := h.unbinding
  rcases hm.labour_or_stays hs h.pool hq w with ⟨m, f, g, a, b, -, ha, hb, hf, hl, hg⟩ | hstay
  · cases hw.symm.trans ha
    cases hl with
    | unbound =>
        have hqueued : f.phase = .queued := by simpa [standing, hf] using h.queued
        have hbound : f.worker = some (p.workerName w) := by simpa [binding?, hf] using h.bound
        rcases f.unbind_cases (p.workerName w) with ⟨-, hend, -⟩ | ⟨-, hsame⟩
        · rw [hqueued] at hend; simp at hend
        · refine ⟨by simp [binding?, hg, hsame, hbound, hm.workerName h.pool hq], fun c hc hserves => ?_⟩
          cases hb.symm.trans hc
          exact hserves
  · exact absurd rfl ((hstay _ rfl).2 hw h.idle refusal)

/-! ## Flights that are queued again -/

theorem Running.queued {stage : RunStage} {next : RunStep} (h : Running s c n f stage g next events)
    (hg : g.phase = .queued) : f.phase = .queued := by
  cases h <;> first | exact hg | cases hg

theorem Labour.queued {name : String} (h : Labour s w name n f act a g b events) (hg : g.phase = .queued) :
    f.phase = .queued := by
  cases h with
  | ran hr => exact hr.queued hg
  | @failed _ _ message =>
      rcases f.fail_cases message with ⟨-, he⟩ | he <;> rw [he] at hg
      · cases hg
      · exact hg
  | unbound => rwa [f.phase_unbind] at hg
  | bound | answered | withheld | returned | posted => exact hg

/-- A flight is queued when it is started and when a newer input queues it again. -/
theorem Move.queues (hm : Move s act s' events) (h : (s'.standing n).phase = some .queued) :
    (s.standing n).phase = some .queued ∨ (s.standing n).phase = none ∨ Requeued n events := by
  have hnew {u : Scheduler} {r : Registration} {input : Payload} (hu : u.flights = s.flights ++ [Flight.of r input])
      (h : (u.standing n).phase = some .queued) : (s.standing n).phase = some .queued ∨ (s.standing n).phase = none := by
    simp only [standing, hu, flights_concat] at h ⊢
    split at h
    · rename_i e; simp [e]
    · exact .inl h
  have hset {u : Scheduler} {m : Nat} {f g : Flight} (hf : s.flights[m]? = some f)
      (hu : u.flights = (s.setFlight m g).flights) (h : (u.standing n).phase = some .queued) :
      (s.standing n).phase = some .queued ∨ n = m ∧ g.phase = .queued := by
    simp only [standing, hu, flights_setFlight hf] at h ⊢
    split at h
    · exact .inr ⟨by assumption, by simpa using h⟩
    · exact .inl h
  cases hm with
  | launched => exact (hnew rfl h).imp_right .inl
  | inlined => exact (hnew rfl h).imp_right .inl
  | superseded _ hf =>
      rcases hset hf rfl h with h | ⟨rfl, hg⟩
      · exact .inl h
      · exact .inl (by simpa [standing, hf, Flight.renewed] using hg)
  | rearmed _ hf =>
      rcases hset hf rfl h with h | ⟨rfl, -⟩
      · exact .inl h
      · exact .inr (.inr ⟨_, _, _, List.mem_singleton_self _⟩)
  | collected _ hf | took _ hf =>
      rcases hset hf rfl h with h | ⟨-, hg⟩
      · exact .inl h
      · cases hg
  | ranInline _ hf hr =>
      rcases hset hf rfl h with h | ⟨rfl, hg⟩
      · exact .inl h
      · exact .inl (by simpa [standing, hf] using hr.queued hg)
  | worked _ _ _ hf hl =>
      rcases hset hf rfl h with h | ⟨rfl, hg⟩
      · exact .inl h
      · exact .inl (by simpa [standing, hf] using hl.queued hg)
  | warned | alarmed => exact .inl ((map_modify (fun _ => by rfl) _ n).symm.trans h)
  | @gaveUp _ _ _ _ m =>
      simp only [standing, List.getElem?_modify] at h ⊢
      cases hf : s.flights[n]? with
      | none => simp [hf] at h
      | some f =>
          by_cases e : m = n
          · simp [hf, e, Flight.close] at h
          · exact .inl (by simpa [hf, e] using h)
  | _ => exact .inl h

end Scheduler

end SingleFlight
