import SingleFlight.Proofs.Closing
import SingleFlight.Proofs.Scheduler.Backlog

/-!
# Coming to rest

A scheduler with a pool that is left in peace gets on until it is at rest: no call is under way, no job is in the loop,
and the pool has nothing to do. It takes finitely many steps to get there, whichever thread takes the next one.
-/

namespace SingleFlight

open Scheduler

variable [Payloads]

/-- The step is no choice of the host: no thread enters the scheduler, no function ends and no callback panics. -/
def SchedulerAct.isPlain : SchedulerAct → Bool
  | .run _ => true
  | .advance _ refusal => refusal.isNone
  | .leave _ panic => panic.isNone
  | .expire _ => true
  | .abandon _ => true
  | _ => false

namespace System

variable {sys sys' : System} {act : SchedulerAct} {history : List Moment} {events : List SchedulerEvent}

/-- Nobody has anything to do for the scheduler. -/
structure Quiescent (sys : System) : Prop where
  calls : sys.scheduler.callsOf .owner = []
  jobs : sys.loop.queue = []
  queue : ∀ p, sys.scheduler.pool = some p → p.queue = []
  workers : ∀ p, sys.scheduler.pool = some p → ∀ x ∈ p.workers, x.phase.task? = none

/-! ## Getting on -/

/-- A call or a worker can be taken on. -/
def GetsOn (sys : System) : Prop :=
  ∃ act, act.isPlain = true ∧ (∀ job, act ≠ .run job) ∧ sys.scheduler.Enables act

/-- A thread is inside of a function and may end it with any answer. -/
def MayEnd (sys : System) (c : Caller) : Prop := ∀ answer, sys.scheduler.Enables (.reply c answer)

theorem Steady.registration (h : Steady history sys) {n : Nat} {f : Flight} (hf : sys.scheduler.flights[n]? = some f) :
    ∃ r, sys.scheduler.registration? f.action = some r :=
  ⟨_, List.getElem?_eq_getElem (h.reached.registered h.pooled n f hf)⟩

theorem Steady.owner_gets_on (h : Steady history sys) {x : Call} {rest : List Call}
    (hcs : sys.scheduler.callsOf .owner = x :: rest) : sys.GetsOn := by
  have hserves := h.serving x (hcs ▸ List.mem_cons_self)
  obtain ⟨p, hp⟩ := exists_pool h.pooled
  cases x with
  | applying id input => exact ⟨.advance .owner none, rfl, by simp, enables_applying hcs⟩
  | submitting n =>
      have hbusy : (sys.scheduler.standing n).Busy := (waiting_submitting hp hcs).busy List.mem_cons_self
      obtain ⟨f, hf⟩ := h.sane.busy_some hbusy
      exact ⟨.advance .owner none, rfl, by simp, enables_submitting hcs hp hf⟩
  | finishing n =>
      obtain ⟨f, hf⟩ := h.finishing n (hcs ▸ List.mem_cons_self)
      exact ⟨.advance .owner none, rfl, by simp, enables_finishing hcs hf⟩
  | delivering n o =>
      obtain ⟨f, hf, -⟩ := (h.reached.delivering h.pooled).taken_closed (hcs ▸ List.mem_cons_self)
      obtain ⟨r, hr⟩ := h.registration hf
      exact ⟨.advance .owner none, rfl, by simp, enables_delivering hcs hf hr⟩
  | calling n => exact ⟨.leave .owner none, rfl, by simp, enables_calling hcs⟩
  | posting | offering | running | taking | closing => cases hserves

/-- A worker that has a task, or comes for one, gets on by itself or is inside of its function. -/
theorem Steady.worker_gets_on (h : Steady history sys) {p : Pool Nat WorkStage} {w : Nat} {a : WorkerPhase Nat WorkStage}
    (hp : sys.scheduler.pool = some p) (hw : p.phase? w = some a) (hretired : a ≠ .retired) (hout : a ≠ .disconnected)
    (hwait : ∀ timed, a ≠ .waiting timed) :
    sys.GetsOn ∨ sys.MayEnd (.worker w) := by
  have hcs := h.others (.worker w) (by simp)
  have hrun := h.single.firstRun p w a hp hw
  have hself (he : sys.scheduler.Enables (.advance (.worker w) none)) : sys.GetsOn ∨ sys.MayEnd (.worker w) :=
    .inl ⟨.advance (.worker w) none, rfl, by simp, he⟩
  have hbusy {n : Nat} (hpos : 0 < (sys.scheduler.standing n).waiting + (sys.scheduler.standing n).starting
      + (sys.scheduler.standing n).inside) : ∃ f r, sys.scheduler.flights[n]? = some f ∧
        sys.scheduler.registration? f.action = some r := by
    obtain ⟨f, hf⟩ := h.sane.busy_some (.inr hpos)
    obtain ⟨r, hr⟩ := h.registration hf
    exact ⟨f, r, hf, hr⟩
  cases a with
  | holding | recorded | leaving | seeking | listening | expired => exact hself (enables_routine hcs hp hw rfl)
  | ready n =>
      have := waiting_pos hp hw rfl
      obtain ⟨f, -, hf, -⟩ := hbusy (n := n) (by omega)
      exact hself (enables_ready hcs hp hw hf)
  | working n stage =>
      cases stage with
      | running stage =>
          cases stage with
          | starting =>
              have := starting_pos (n := n) hp hw (by simp)
              obtain ⟨f, r, hf, hr⟩ := hbusy (n := n) (by omega)
              exact hself (enables_running hcs hp hw hf hr (by simp))
          | invoking input token =>
              have := inside_pos (n := n) hp hw (by simp)
              obtain ⟨f, r, hf, hr⟩ := hbusy (n := n) (by omega)
              exact .inr fun answer => enables_reply hcs hp hw hf hr answer
          | settling token outcome =>
              have := inside_pos (n := n) hp hw (by simp)
              obtain ⟨f, r, hf, hr⟩ := hbusy (n := n) (by omega)
              exact hself (enables_running hcs hp hw hf hr (by simp))
      | failing | unbinding | returning | posting => exact hrun.elim
  | worked n panic stage =>
      cases stage with
      | running | failing => exact hrun.elim
      | unbinding | returning | posting =>
          obtain ⟨f, hf⟩ := hrun
          exact hself (enables_hook hcs hp hw hf (by simp))
  | waiting timed => exact absurd rfl (hwait timed)
  | disconnected => exact absurd rfl hout
  | retired => exact absurd rfl hretired

theorem GetsOn.step (h : sys.GetsOn) :
    ∃ act sys' events, act.isPlain = true ∧ sys.step (.thread act) = some (sys', events) := by
  obtain ⟨act, hact, hrun, s, events, hs⟩ := h
  obtain ⟨sys', hstep, -⟩ := step_thread hrun hs
  exact ⟨act, sys', events, hact, hstep⟩

theorem step_run {job : Posted} {rest : List Posted} (hcs : sys.scheduler.callsOf .owner = [])
    (hpool : sys.scheduler.isSynchronous = false) (hq : sys.loop.queue = job :: rest) :
    ∃ sys' events, sys.step (.thread (.run job)) = some (sys', events) := by
  have hfree : sys.scheduler.isFree .owner = true := by simp [isFree, hcs]
  have hyield : sys.loop.yield (.run job) = some { sys.loop with queue := rest } := by
    simp [OwnerLoop.yield, OwnerLoop.take?, hq]
  exact ⟨_, _, by simp [System.step, hyield, Scheduler.step, hfree, hpool]; exact ⟨rfl, rfl⟩⟩

/-- Unless it is at rest, some thread can get on. -/
theorem Steady.gets_on (h : Steady history sys) (hbusy : ¬ sys.Quiescent) :
    (∃ act sys' events, act.isPlain = true ∧ sys.step (.thread act) = some (sys', events)) ∨
      ∃ w, sys.MayEnd (.worker w) := by
  have hworker {w : Nat} (hw : sys.GetsOn ∨ sys.MayEnd (.worker w)) :
      (∃ act sys' events, act.isPlain = true ∧ sys.step (.thread act) = some (sys', events)) ∨
        ∃ w, sys.MayEnd (.worker w) :=
    hw.imp GetsOn.step fun h => ⟨w, h⟩
  -- who is stuck has no call to take on, then no job to run, then no task to come for, then no task in hand
  refine Classical.byContradiction fun hstuck => hbusy ?_
  have hcalls : sys.scheduler.callsOf .owner = [] := by
    cases hcs : sys.scheduler.callsOf .owner with
    | nil => rfl
    | cons x rest => exact absurd (.inl (h.owner_gets_on hcs).step) hstuck
  refine ⟨hcalls, ?_, fun p hp => ?_, fun p hp x hx => ?_⟩
  · cases hq : sys.loop.queue with
    | nil => rfl
    | cons job rest =>
        obtain ⟨sys', events, hstep⟩ := step_run hcalls h.pooled hq
        exact absurd (.inl ⟨.run job, sys', events, rfl, hstep⟩) hstuck
  · refine Classical.byContradiction fun hne => hstuck ?_
    have hman := h.sane.regular.manned p hp
    obtain ⟨w, a, hw, hretired, hout, hwait⟩ :=
      (h.reached.attended h.isOpen h.unrefused p hp).comer (h.reached.counted p hp) hman hne
    exact hworker (h.worker_gets_on hp hw hretired hout hwait)
  · refine Classical.byContradiction fun htask => hstuck ?_
    have hw := Pool.phase?_of_mem (h.sane.regular.manned p hp) hx
    refine hworker (h.worker_gets_on hp hw ?_ ?_ ?_)
    · rintro e; rw [e] at htask; exact htask rfl
    · rintro e; rw [e] at htask; exact htask rfl
    · rintro timed e; rw [e] at htask; exact htask rfl

/-- At rest every flight is closed. -/
theorem Reachable.landed (h : Reachable history sys) (hpool : sys.scheduler.isSynchronous = false)
    (hopen : sys.scheduler.isClosed = false) (hloop : sys.loop.isClosed = false) (hnever : NeverRefused history)
    (hq : sys.Quiescent) {n : Nat} {f : Flight} (hf : sys.scheduler.flights[n]? = some f) : f.phase = .closed := by
  have hs := h.sane hpool
  refine Classical.byContradiction fun hopened => ?_
  obtain ⟨p, hp⟩ := exists_pool hpool
  obtain ⟨g, hg, hcarried⟩ := (h.carrying hpool).isCarried hs hopen hloop hnever hp
    (hs.charted.complete hopen n f hf hopened)
  exact not_isCarried hs (by simp [isFree, hq.calls]) (hq.queue p hp) (hq.workers p hp) hq.jobs hcarried

theorem Steady.landed (h : Steady history sys) (hq : sys.Quiescent) {n : Nat} {f : Flight}
    (hf : sys.scheduler.flights[n]? = some f) : f.phase = .closed :=
  h.reached.landed h.pooled h.isOpen h.loop h.unrefused hq hf

theorem Steady.none_in_flight (h : Steady history sys) (hq : sys.Quiescent) (id : ActionId) :
    sys.scheduler.flightOf? id = none := by
  refine Option.eq_none_iff_forall_ne_some.mpr fun n hn => ?_
  obtain ⟨f, -, hf, -, hopened, -⟩ := h.sane.charted.charted id n (mem_of_flightOf? hn)
  exact hopened (h.landed hq hf)

/-! ## Coming closer -/

/-- What is left to do for everybody. -/
def backlog (sys : System) : Nat :=
  costs (sys.scheduler.callsOf .owner) + sys.scheduler.pool.elim 0 Pool.backlog + dues sys.loop.queue

/-- How far the idle workers are from taking a task or from their rest. -/
def unrest (sys : System) : Nat := sys.scheduler.pool.elim 0 Pool.unrest

/-- Less is left to do, or as much and the idle workers are closer to their rest. -/
def Closer (sys' sys : System) : Prop :=
  sys'.backlog < sys.backlog ∨ sys'.backlog = sys.backlog ∧ sys'.unrest < sys.unrest

theorem closer_wf : WellFounded Closer := by
  refine Subrelation.wf (fun {sys' sys} h => ?_)
    (InvImage.wf (fun sys : System => (sys.backlog, sys.unrest)) (Prod.lex Nat.lt_wfRel Nat.lt_wfRel).wf)
  exact Prod.lex_def.mpr h

theorem dues_step (h : sys.step (.thread act) = some (sys', events)) (hloop : sys.loop.isClosed = false) :
    dues sys'.loop.queue + act.due = dues sys.loop.queue + dues (jobsOf events) := by
  obtain ⟨loop, hyield, -, hposted⟩ := step_thread_cases h
  obtain ⟨hclosed, hqueue⟩ := OwnerLoop.yield_cases hyield
  rw [hposted, OwnerLoop.queue_postAll _ _ (hclosed.trans hloop), dues_append, jobsOf]
  rcases hqueue with ⟨hno, e⟩ | ⟨job, rfl, e⟩
  · have hdue : act.due = 0 := by
      cases act with
      | run job => exact absurd rfl (hno job)
      | _ => rfl
    rw [e, hdue]; omega
  · rw [e, dues_cons, SchedulerAct.due]; omega

/-- Every step that is no request brings a scheduler that is left in peace closer to its rest. -/
theorem Steady.closer (h : Steady history sys) (hgentle : sys.scheduler.Gentle act)
    (hact : ∀ c id input, act ≠ .apply c id input) (hstep : sys.step (.thread act) = some (sys', events)) :
    sys'.Closer sys := by
  have hdues := dues_step hstep h.loop
  obtain ⟨loop, -, hm, -⟩ := step_thread_cases hstep
  have hs := h.sane
  obtain ⟨p, hp⟩ := exists_pool h.pooled
  have hman := hs.regular.manned p hp
  -- the calls of the owner or the pool get on, and the jobs make up for it
  suffices costs (sys'.scheduler.callsOf .owner) + sys'.scheduler.pool.elim 0 Pool.backlog + dues (jobsOf events)
        < costs (sys.scheduler.callsOf .owner) + p.backlog + act.due ∨
      costs (sys'.scheduler.callsOf .owner) + sys'.scheduler.pool.elim 0 Pool.backlog + dues (jobsOf events)
        = costs (sys.scheduler.callsOf .owner) + p.backlog + act.due ∧
      sys'.scheduler.pool.elim 0 Pool.unrest < p.unrest by
    simp only [Closer, backlog, unrest, hp, Option.elim_some]
    omega
  generalize sys'.scheduler = s' at hm
  cases hm with
  | unknown | mismatched | late => exact absurd rfl (hact _ _ _)
  | ignored _ hc => cases hc.symm.trans h.isOpen
  | shutAgain | shut => exact hgentle.elim
  | @turned _ c cs _ ht =>
      have hcost := ht.cost hact
      by_cases hc : c = .owner
      · subst hc
        simp only [callsOf_setCalls_self, pool_setCalls, hp, Option.elim_some]
        omega
      · rw [h.others c hc] at ht
        cases ht with
        | requested | received | landed => exact absurd rfl hc
        | sent => exact absurd rfl (hact _ _ _)
  | launched hcs =>
      obtain rfl := (h.caller hcs).1
      simp only [callsOf_setCalls_self, pool_setCalls, hp, Option.elim_some, hcs, costs_cons, Call.cost, jobsOf_cons,
        jobsOf_nil, SchedulerEvent.job?, SchedulerAct.due, Option.toList_none, List.append_nil, dues_nil]
      omega
  | superseded hcs | rearmed hcs => cases (h.caller hcs).2
  | @submitted c refusal n f _ q pooled rest hcs hf hp' ha =>
      cases hp.symm.trans hp'
      obtain rfl := (h.caller hcs).1
      obtain rfl : refusal = none := hgentle
      have hbacklog := ha.backlog hman
      have hjobs (error : Option PoolError) : jobsOf (submissionAnswer .owner p.name f.action error) = [] := by
        unfold submissionAnswer; split <;> rfl
      simp only [callsOf_setCalls_self, pool_setCalls, Option.elim_some, hcs, costs_cons, Call.cost, jobsOf_append,
        jobsOf_pooled, hjobs, SchedulerAct.due, List.append_nil, dues_nil]
      omega
  | collected hcs =>
      obtain rfl := (h.caller hcs).1
      simp only [callsOf_setCalls_self, pool_setCalls, pool_setFlight, hp, Option.elim_some, hcs, costs_cons, Call.cost,
        jobsOf_cons, jobsOf_nil, SchedulerEvent.job?, SchedulerAct.due, Option.toList_none, List.append_nil, dues_nil]
      omega
  | inlined => exact absurd rfl (hact _ _ _)
  | ranInline hcs | took hcs => cases (h.caller hcs).2
  | @worked _ w n f g a b _ _ _ hp' hw hf hl =>
      cases hp.symm.trans hp'
      have hcost := hl.cost (h.single.firstRun p w a hp hw) (h.single.signal n f hf)
      have hload := Pool.load_setPhase WorkerPhase.cost b hman.distinct hw
      have hdue : act.due = 0 := by cases hl <;> rfl
      have hcalls : ({ sys.scheduler.setFlight n g with pool := some (p.setPhase w b) } : Scheduler).callsOf .owner
          = sys.scheduler.callsOf .owner := rfl
      simp only [hcalls, Option.elim_some, Pool.backlog, Pool.queue_setPhase]
      omega
  | warned _ hp' _ hst => cases (h.not_stopping hp').symm.trans hst
  | @idled _ w step _ q pooled hact' hp' hw hroutine _ =>
      cases hp.symm.trans hp'
      have hdue : act.due = 0 := by rcases hact' with rfl | ⟨-, r, rfl⟩ <;> rfl
      have hcloser := (Pool.work_move hw).closer hman hroutine
      have hcalls : ({ sys.scheduler with pool := some q } : Scheduler).callsOf .owner = sys.scheduler.callsOf .owner := rfl
      simp only [hcalls, Option.elim_some, jobsOf_pooled, dues_nil]
      omega
  | halted _ hk | alarmed _ hk | reported _ hk | undone _ hk | gaveUp _ hk => exact absurd hk h.not_closing
  | abandoned hcs => cases (h.caller hcs).2

end System

end SingleFlight
