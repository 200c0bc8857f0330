import SingleFlight.Proofs.Scheduler.Workers
import SingleFlight.Rehearsal.Values
import SingleFlight.Scheduler.Plan

/-!
# Schedulers at work

A scheduler together with the loop that its owner runs: what the scheduler posts is queued there, and the
owner runs the oldest job first. Which thread takes the next step, and what it does, is up to the environment.
A history lists the steps of a run, newest first.
-/

namespace SingleFlight

section

variable [Payloads]

/-- The job that an event posts. -/
def SchedulerEvent.job? : SchedulerEvent → Option Posted
  | .posted _ job => some job
  | _ => none

/-- The loop without the job that a step runs, if the step is no run of another job. -/
def OwnerLoop.yield (l : OwnerLoop Posted) : SchedulerAct → Option (OwnerLoop Posted)
  | .run job => l.take?.bind fun (oldest, rest) => if oldest = job then some rest else none
  | _ => some l

namespace OwnerLoop

theorem yield_of_not_run {l : OwnerLoop Posted} {act : SchedulerAct} (h : ∀ job, act ≠ .run job) :
    l.yield act = some l := by
  cases act with
  | run job => exact absurd rfl (h job)
  | _ => rfl

/-- A step leaves the loop as it is or runs its oldest job. -/
theorem yield_cases {l l' : OwnerLoop Posted} {act : SchedulerAct} (h : l.yield act = some l') :
    l'.isClosed = l.isClosed ∧ ((∀ job, act ≠ .run job) ∧ l'.queue = l.queue ∨
      ∃ job, act = .run job ∧ l.queue = job :: l'.queue) := by
  unfold yield at h
  split at h
  · rename_i job
    obtain ⟨⟨oldest, rest⟩, ht, h⟩ := Option.bind_eq_some_iff.mp h
    obtain ⟨hqueue, hclosed⟩ := take?_eq_some ht
    simp only at h
    split at h
    · rename_i e; cases h; exact ⟨hclosed, .inr ⟨job, rfl, e ▸ hqueue⟩⟩
    · cases h
  · rename_i hact
    cases h; exact ⟨rfl, .inl ⟨hact, rfl⟩⟩

theorem mem_of_yield {l l' : OwnerLoop Posted} {act : SchedulerAct} (h : l.yield act = some l') (job : Posted)
    (hact : act = .run job) : job ∈ l.queue := by
  rcases (yield_cases h).2 with ⟨hno, -⟩ | ⟨job', hact', e⟩
  · exact absurd hact (hno job)
  · cases hact.symm.trans hact'
    rw [e]; exact List.mem_cons_self

end OwnerLoop

/-- A scheduler with the loop of its owner. -/
structure System where
  scheduler : Scheduler
  loop : OwnerLoop Posted := {}

/-- One step of the whole. -/
inductive SystemAct
  | thread (act : SchedulerAct)
  /-- The owner drops its loop. -/
  | dropLoop

/-- A step that was taken, with its events. -/
structure Moment where
  act : SystemAct
  events : List SchedulerEvent

namespace System

/-- One step, `none` if it is not possible now. -/
def step (sys : System) : SystemAct → Option (System × List SchedulerEvent)
  | .thread act =>
    (sys.loop.yield act).bind fun loop =>
      (sys.scheduler.step act).map fun (scheduler, events) =>
        ({ scheduler, loop := loop.postAll (events.filterMap SchedulerEvent.job?) }, events)
  | .dropLoop => some ({ sys with loop := sys.loop.drop }, [])

/-- `Run start history sys`: the steps of the history lead from `start` to `sys`. -/
inductive Run (start : System) : List Moment → System → Prop
  | start : Run start [] start
  | step {history sys act sys' events} : Run start history sys → sys.step act = some (sys', events) →
      Run start ({ act, events } :: history) sys'

end System

/-! ## Beginnings -/

/-- The builder numbers what it registers. -/
theorem Numbered.register {p : Plan} (h : Numbered p.registrations) (kind : ActionKind) (input : PayloadType)
    (hasSink : Bool) : Numbered (p.register kind input hasSink).registrations := by
  intro i r hr
  simp only [Plan.register, List.getElem?_append] at hr
  split at hr
  · exact h i r hr
  · rename_i hi
    cases hk : i - p.registrations.length with
    | zero =>
        have hi : i = p.registrations.length := by omega
        rw [hk] at hr
        cases hr; rw [hi]; rfl
    | succ k => rw [hk] at hr; cases hr

theorem Plan.opening_cases {p : Plan} {identity tag : String} {processors : Nat} {s : Scheduler}
    (h : p.opening identity tag processors = .opened s) :
    (p.executor = none ∧ s = { identity, mode := p.mode, registrations := p.registrations, pool := none }) ∨
      ∃ settings, p.executor ≠ none ∧ p.poolSettings processors = .ok settings ∧ settings.validate = .ok () ∧
        s = { identity, mode := p.mode, registrations := p.registrations
              pool := some (.create (settings.namePrefix ++ "-" ++ tag) settings) } := by
  unfold Plan.opening at h
  split at h
  · rename_i hnone
    cases h; exact .inl ⟨Option.isNone_iff_eq_none.mp hnone, rfl⟩
  · rename_i hsome
    split at h
    · cases h
    · rename_i settings hsettings
      split at h
      · cases h
      · rename_i hvalid
        cases h; exact .inr ⟨settings, fun e => hsome (Option.isNone_iff_eq_none.mpr e), hsettings, hvalid, rfl⟩

namespace System

/-- Nothing was asked of the scheduler yet. -/
structure Begins (sys : System) : Prop where
  numbered : Numbered sys.scheduler.registrations
  pool : sys.scheduler.pool = none ∨
    ∃ name settings, sys.scheduler.pool = some (.create name settings)
  flights : sys.scheduler.flights = []
  inFlight : sys.scheduler.inFlight = []
  isClosed : sys.scheduler.isClosed = false
  calls : sys.scheduler.calls = []
  closing : sys.scheduler.closing = none
  loop : sys.loop = {}

theorem Begins.of_opening {p : Plan} {identity tag : String} {processors : Nat} {s : Scheduler}
    (hp : Numbered p.registrations) (h : p.opening identity tag processors = .opened s) : Begins { scheduler := s } := by
  rcases Plan.opening_cases h with ⟨-, rfl⟩ | ⟨settings, -, -, -, rfl⟩
  · exact ⟨hp, .inl rfl, rfl, rfl, rfl, rfl, rfl, rfl⟩
  · exact ⟨hp, .inr ⟨_, _, rfl⟩, rfl, rfl, rfl, rfl, rfl, rfl⟩

/-- `Reachable history sys`: what a plan opens comes to `sys` by the steps of the history. -/
def Reachable (history : List Moment) (sys : System) : Prop :=
  ∃ (p : Plan) (identity tag : String) (processors : Nat) (s : Scheduler),
    Numbered p.registrations ∧ p.opening identity tag processors = .opened s ∧ Run { scheduler := s } history sys

variable {sys sys' : System} {act : SystemAct} {history : List Moment} {events : List SchedulerEvent}

/-- What holds at every beginning and is kept by every step holds in every history. -/
theorem Reachable.invariant {P : List Moment → System → Prop} (hbegin : ∀ sys, sys.Begins → P [] sys)
    (hstep : ∀ {history sys act sys' events}, Reachable history sys → P history sys →
      sys.step act = some (sys', events) → P ({ act, events } :: history) sys')
    (h : Reachable history sys) : P history sys := by
  obtain ⟨p, identity, tag, processors, s, hp, hopen, hrun⟩ := h
  induction hrun with
  | start => exact hbegin _ (.of_opening hp hopen)
  | step hrun hs ih => exact hstep ⟨p, identity, tag, processors, s, hp, hopen, hrun⟩ ih hs

theorem Reachable.step (h : Reachable history sys) (hs : sys.step act = some (sys', events)) :
    Reachable ({ act, events } :: history) sys' := by
  obtain ⟨p, identity, tag, processors, s, hp, hopen, hrun⟩ := h
  exact ⟨p, identity, tag, processors, s, hp, hopen, hrun.step hs⟩

/-! ## Steps -/

/-- A step of a thread, with what it takes from the loop and posts. -/
theorem step_yielded {a : SchedulerAct} {s : Scheduler} {loop : OwnerLoop Posted} (hy : sys.loop.yield a = some loop)
    (hs : sys.scheduler.step a = some (s, events)) :
    sys.step (.thread a)
      = some ({ scheduler := s, loop := loop.postAll (events.filterMap SchedulerEvent.job?) }, events) := by
  simp only [System.step, hy, hs, Option.bind_some, Option.map_some]

theorem step_yields {a : SchedulerAct} (h : sys.step (.thread a) = some (sys', events)) :
    ∃ loop, sys.loop.yield a = some loop ∧ sys.scheduler.step a = some (sys'.scheduler, events) ∧
      sys'.loop = loop.postAll (events.filterMap SchedulerEvent.job?) := by
  obtain ⟨loop, hloop, h⟩ := Option.bind_eq_some_iff.mp h
  obtain ⟨⟨s, inner⟩, hs, h⟩ := Option.map_eq_some_iff.mp h
  cases h; exact ⟨loop, hloop, hs, rfl⟩

/-- A step drops the loop or is one of a thread, which may run the oldest job of the loop. -/
theorem step_cases (h : sys.step act = some (sys', events)) :
    (act = .dropLoop ∧ sys' = { sys with loop := sys.loop.drop } ∧ events = []) ∨
      ∃ a loop, act = .thread a ∧ sys.loop.yield a = some loop ∧
        Scheduler.Move sys.scheduler a sys'.scheduler events ∧
        sys'.loop = loop.postAll (events.filterMap SchedulerEvent.job?) := by
  cases act with
  | dropLoop => cases h; exact .inl ⟨rfl, rfl, rfl⟩
  | thread a =>
      obtain ⟨loop, hloop, hs, hpost⟩ := step_yields h
      exact .inr ⟨a, loop, rfl, hloop, Scheduler.step_move hs, hpost⟩

theorem step_thread_cases {a : SchedulerAct} (h : sys.step (.thread a) = some (sys', events)) :
    ∃ loop, sys.loop.yield a = some loop ∧ Scheduler.Move sys.scheduler a sys'.scheduler events ∧
      sys'.loop = loop.postAll (events.filterMap SchedulerEvent.job?) := by
  rcases step_cases h with ⟨e, -⟩ | ⟨_, loop, e, hcases⟩
  · cases e
  · cases e; exact ⟨loop, hcases⟩

theorem step_jobless {a : SchedulerAct} {s : Scheduler} (hact : ∀ job, a ≠ .run job)
    (hs : sys.scheduler.step a = some (s, events)) (hjobs : events.filterMap SchedulerEvent.job? = []) :
    sys.step (.thread a) = some ({ sys with scheduler := s }, events) := by
  rw [step_yielded (OwnerLoop.yield_of_not_run hact) hs, hjobs]
  rfl

/-- What is kept by every move of the scheduler and depends on nothing else is kept by every step. -/
theorem step_scheduler {P : Scheduler → Prop} (h : sys.step act = some (sys', events)) (hP : P sys.scheduler)
    (hmove : ∀ {a}, Scheduler.Move sys.scheduler a sys'.scheduler events → P sys'.scheduler) :
    P sys'.scheduler := by
  rcases step_cases h with ⟨-, rfl, -⟩ | ⟨a, loop, -, -, hm, -⟩
  · exact hP
  · exact hmove hm

/-! ## Sanity -/

theorem Begins.callsOf (h : sys.Begins) (c : Caller) : sys.scheduler.callsOf c = [] := by
  simp [Scheduler.callsOf, h.calls]

theorem Begins.regular (h : sys.Begins) : sys.scheduler.Regular := by
  refine ⟨fun c => ?_, fun p hp => ?_, fun p hp hs => ?_, fun hk => ?_⟩
  · rw [h.callsOf]; exact ⟨by simp, by simp⟩
  · rcases h.pool with hnone | ⟨name, settings, hp'⟩
    · cases hnone.symm.trans hp
    · cases hp'.symm.trans hp; exact .create name settings
  · rcases h.pool with hnone | ⟨name, settings, hp'⟩
    · cases hnone.symm.trans hp
    · cases hp'.symm.trans hp; cases hs
  · simp [h.closing] at hk

theorem Begins.sane (h : sys.Begins) (hpool : sys.scheduler.isSynchronous = false) : sys.scheduler.Sane := by
  obtain ⟨name, settings, hp⟩ : ∃ name settings, sys.scheduler.pool = some (.create name settings) := by
    rcases h.pool with hp | hp
    · simp [Scheduler.isSynchronous, hp] at hpool
    · exact hp
  have hf (n : Nat) : sys.scheduler.flights[n]? = none := by simp [h.flights]
  have hst (n : Nat) : sys.scheduler.standing n = ⟨none, 0, 0, 0⟩ := by
    simp [Scheduler.standing, hf, h.callsOf, hp, Pool.create, Pool.pending, Pool.queue, Pool.tally]
  refine ⟨hpool, h.regular, ⟨h.numbered, ?_, ?_, ?_, ?_⟩, ?_, fun n => ?_, fun _ n => ?_, ?_⟩
  · simp [h.inFlight]
  · intro id n hn; simp [h.inFlight] at hn
  · intro _ n f hn; rw [hf] at hn; cases hn
  · intro _; exact h.inFlight
  · intro n f hn; rw [hf] at hn; cases hn
  · rw [hst]; exact rfl
  · rw [hst]; intro hc; cases hc
  · intro n m f g hn; rw [hf] at hn; cases hn

theorem Reachable.regular (h : Reachable history sys) : sys.scheduler.Regular :=
  h.invariant (P := fun _ sys => sys.scheduler.Regular) (fun _ hb => hb.regular) fun _ ih hs =>
    step_scheduler hs ih fun hm => hm.regular ih

theorem step_synchronous (h : sys.step act = some (sys', events)) :
    sys'.scheduler.isSynchronous = sys.scheduler.isSynchronous := by
  rcases step_cases h with ⟨-, rfl, -⟩ | ⟨a, loop, -, -, hm, -⟩
  · rfl
  · exact hm.keeps.synchronous

/-- With a pool the scheduler is sane at any time. -/
theorem Reachable.sane (h : Reachable history sys) (hpool : sys.scheduler.isSynchronous = false) :
    sys.scheduler.Sane := by
  refine h.invariant (P := fun _ sys => sys.scheduler.isSynchronous = false → sys.scheduler.Sane)
    (fun _ hb => hb.sane) ?_ hpool
  intro _ sys act sys' events _ ih hs
  refine step_scheduler (P := fun s => s.isSynchronous = false → s.Sane) hs ih fun hm hsync => ?_
  exact hm.sane (ih (hm.keeps.synchronous ▸ hsync))

/-- With a pool, what holds at every beginning and is kept by every step of a sane scheduler holds in every
history. -/
theorem Reachable.sane_invariant {P : List Moment → System → Prop} (hbegin : ∀ sys, sys.Begins → P [] sys)
    (hstep : ∀ {history sys act sys' events}, Reachable history sys → sys.scheduler.Sane → P history sys →
      sys.step act = some (sys', events) → P ({ act, events } :: history) sys')
    (h : Reachable history sys) (hpool : sys.scheduler.isSynchronous = false) : P history sys := by
  refine h.invariant (P := fun history sys => sys.scheduler.isSynchronous = false → P history sys)
    (fun sys hb _ => hbegin sys hb) (fun hreach ih hs hsync => ?_) hpool
  have hbefore := (step_synchronous hs).symm.trans hsync
  exact hstep hreach (hreach.sane hbefore) (ih hbefore) hs

/-! ## Replays -/

/-- Takes the steps of a list one after the other, added to a history. -/
def replay : List SystemAct → List Moment → System → Option (List Moment × System)
  | [], history, sys => some (history, sys)
  | act :: acts, history, sys =>
    (sys.step act).bind fun (sys, events) => replay acts ({ act, events } :: history) sys

theorem replay_run {start : System} : ∀ {acts : List SystemAct} {history history' : List Moment} {sys sys' : System},
    Run start history sys → replay acts history sys = some (history', sys') → Run start history' sys'
  | [], _, _, _, _, h, hr => by cases hr; exact h
  | act :: acts, history, history', sys, sys', h, hr => by
      obtain ⟨⟨next, events⟩, hs, hr⟩ := Option.bind_eq_some_iff.mp hr
      exact replay_run (h.step hs) hr

theorem replay_reachable {acts : List SystemAct} {history' : List Moment} (h : Reachable history sys)
    (hr : replay acts history sys = some (history', sys')) : Reachable history' sys' := by
  obtain ⟨p, identity, tag, processors, s, hp, hopen, hrun⟩ := h
  exact ⟨p, identity, tag, processors, s, hp, hopen, replay_run hrun hr⟩

end System

end

namespace System

/-- A plan with one action that takes a text. -/
def smallPlan (executor : Option OwnerExecutor) : Plan :=
  { registrations := [{ id := ⟨0⟩, kind := .get, input := .string }], executor }

/-- The small plan opened, with or without a pool of one worker. -/
def small (pooled : Bool) : System where
  scheduler :=
    { identity := "small", mode := .serial, registrations := (smallPlan none).registrations
      pool := if pooled then some (.create "courier-small" .serial) else none }

theorem small_reachable (pooled : Bool) : Reachable [] (small pooled) := by
  have hnumbered : Numbered (smallPlan none).registrations := by
    intro i r h
    match i with
    | 0 => cases h; rfl
    | i + 1 => cases h
  cases pooled with
  | false => exact ⟨smallPlan none, "small", "small", 1, _, hnumbered, rfl, .start⟩
  | true => exact ⟨smallPlan (some .loop), "small", "small", 1, _, hnumbered, rfl, .start⟩

end System

end SingleFlight
