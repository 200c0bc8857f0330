import SingleFlight.Proofs.Scheduler.Sane
import SingleFlight.Proofs.Sources

/-!
# Pending inputs by action

The pending input of an action is the newest input of its flight in the air. Processing a request sets it or finds it
equal, the delivery takes it away, and nothing else changes it while the scheduler is open.
-/

namespace SingleFlight

variable [Payloads]

namespace SchedulerEvent

/-- The input that a request of the action was accepted with. -/
def accepted? (id : ActionId) : SchedulerEvent → Option Payload
  | .queued _ action _ input => if action = id then some input else none
  | .superseded _ action input _ => if action = id then some input else none
  | .rearmed _ action input _ => if action = id then some input else none
  | _ => none

/-- A request of the action was processed. -/
def processes (id : ActionId) : SchedulerEvent → Bool
  | .queued _ action _ _ => action = id
  | .coalesced _ action => action = id
  | .superseded _ action _ _ => action = id
  | .rearmed _ action _ _ => action = id
  | _ => false

/-- The outcome of the action's flight was taken for its delivery. -/
def lands (id : ActionId) : SchedulerEvent → Bool
  | .delivered _ action _ => action = id
  | _ => false

/-- The event is no request and no delivery of any action. -/
def isAside : SchedulerEvent → Bool
  | .queued _ _ _ _ => false
  | .coalesced _ _ => false
  | .superseded _ _ _ _ => false
  | .rearmed _ _ _ _ => false
  | .delivered _ _ _ => false
  | _ => true

theorem aside {e : SchedulerEvent} (h : e.isAside = true) (id : ActionId) :
    e.accepted? id = none ∧ e.processes id = false ∧ e.lands id = false := by
  cases e <;> simp_all [isAside, accepted?, processes, lands]

end SchedulerEvent

namespace Scheduler

variable {s s' : Scheduler} {act : SchedulerAct} {c : Caller} {n m : Nat} {id : ActionId} {f g : Flight}
  {events : List SchedulerEvent}

/-- The newest input of the action's flight in the air. -/
def pendingInput (s : Scheduler) (id : ActionId) : Option Payload :=
  (s.flightOf? id).bind fun n => (s.flights[n]?).map Flight.input

/-- `Serving s id events s'`: what a move does to the pending input of the action. -/
inductive Serving (s : Scheduler) (id : ActionId) (events : List SchedulerEvent) (s' : Scheduler) : Prop
  | aside : s'.pendingInput id = s.pendingInput id → (∀ e ∈ events, e.accepted? id = none ∧ e.processes id = false ∧
      e.lands id = false) → Serving s id events s'
  | accepted {input} : s'.pendingInput id = some input → events.findSome? (·.accepted? id) = some input →
      (∃ e ∈ events, e.processes id = true) → (∀ e ∈ events, e.lands id = false) → Serving s id events s'
  | coalesced : s'.pendingInput id = s.pendingInput id → (s.pendingInput id).isSome = true →
      (∀ e ∈ events, e.accepted? id = none ∧ e.lands id = false) → (∃ e ∈ events, e.processes id = true) →
      Serving s id events s'
  | landed : s'.pendingInput id = none → (∀ e ∈ events, e.accepted? id = none ∧ e.processes id = false) →
      (∃ e ∈ events, e.lands id = true) → Serving s id events s'

theorem pendingInput_eq (hin : s'.inFlight = s.inFlight)
    (hinput : ∀ n : Nat, (s'.flights[n]?).map Flight.input = (s.flights[n]?).map Flight.input) (id : ActionId) :
    s'.pendingInput id = s.pendingInput id := by
  unfold pendingInput flightOf?
  rw [hin]
  exact Option.bind_congr fun n _ => hinput n

theorem Serving.of_aside (hin : s'.inFlight = s.inFlight)
    (hinput : ∀ n : Nat, (s'.flights[n]?).map Flight.input = (s.flights[n]?).map Flight.input)
    (he : ∀ e ∈ events, e.isAside = true) : Serving s id events s' :=
  .aside (pendingInput_eq hin hinput id) fun e hmem => SchedulerEvent.aside (he e hmem) id

/-- An open scheduler looks up the flight that is not closed. -/
theorem Charted.pendingInput (h : s.Charted) (hopen : s.isClosed = false) (hf : s.flights[n]? = some f)
    (hc : f.phase ≠ .closed) : s.flightOf? f.action = some n ∧ s.pendingInput f.action = some f.input := by
  have hn := h.flightOf? (h.complete hopen n f hf hc)
  exact ⟨hn, by simp [Scheduler.pendingInput, hn, hf]⟩

/-! ## Moves aside -/

theorem Running.aside {stage : RunStage} {next : RunStep} (h : Running s c n f stage g next events) :
    ∀ e ∈ events, e.isAside = true := by
  cases h <;> simp [SchedulerEvent.isAside]

theorem Labour.aside {w : Nat} {name : String} {a b : WorkerPhase Nat WorkStage}
    (h : Labour s w name n f act a g b events) : ∀ e ∈ events, e.isAside = true := by
  cases h with
  | @ran _ _ _ next _ hrun =>
      intro e he
      rcases List.mem_append.mp he with he | he
      · exact hrun.aside e he
      · cases next <;> simp_all [RunStep.panics, SchedulerEvent.isAside]
  | _ => simp [SchedulerEvent.isAside]

theorem submission_aside (pooled : List (PoolEvent Nat)) (pool : String) (error : Option PoolError) :
    ∀ e ∈ pooled.map .pool ++ submissionAnswer c pool id error, e.isAside = true := by
  intro e he
  rcases List.mem_append.mp he with he | he
  · obtain ⟨_, -, rfl⟩ := List.mem_map.mp he; rfl
  · unfold submissionAnswer at he
    split at he <;> simp_all [SchedulerEvent.isAside] <;> rcases he with rfl | rfl <;> rfl

theorem pooled_aside (pooled : List (PoolEvent Nat)) : ∀ e ∈ pooled.map SchedulerEvent.pool, e.isAside = true := by
  simp [SchedulerEvent.isAside]

/-! ## Every move -/

theorem Turn.serving {cs cs' : List Call} (h : Turn s act c cs cs' events) (hcharted : s.Charted)
    (hopen : s.isClosed = false) (id : ActionId) : Serving s id events (s.setCalls c cs') := by
  cases h with
  | @coalesced _ _ n _ f rest hf hc _ =>
      obtain ⟨-, hpending⟩ := hcharted.pendingInput hopen hf hc
      by_cases hid : f.action = id
      · subst hid
        refine .coalesced rfl (by rw [hpending]; rfl) ?_ ⟨_, List.mem_cons_self, by simp [SchedulerEvent.processes]⟩
        simp [SchedulerEvent.accepted?, SchedulerEvent.lands]
      · exact .aside rfl (by simp [SchedulerEvent.accepted?, SchedulerEvent.processes, SchedulerEvent.lands, hid])
  | _ => exact .of_aside rfl (fun _ => rfl) (by simp [SchedulerEvent.isAside])

theorem Serving.renewed (hcharted : s.Charted) (hopen : s.isClosed = false) (hf : s.flights[n]? = some f)
    (hc : f.phase ≠ .closed) (hin : s'.inFlight = s.inFlight) (hflights : s'.flights = (s.setFlight n g).flights)
    {e : SchedulerEvent} (hacc : e.accepted? f.action = some g.input) (hproc : e.processes f.action = true)
    (hother : ∀ id, f.action ≠ id → e.accepted? id = none ∧ e.processes id = false)
    (hland : ∀ id, e.lands id = false) {more : List SchedulerEvent} (hmore : ∀ e ∈ more, e.isAside = true)
    (id : ActionId) : Serving s id (e :: more) s' := by
  obtain ⟨hn, -⟩ := hcharted.pendingInput hopen hf hc
  have haside (x : SchedulerEvent) (hx : x ∈ more) := SchedulerEvent.aside (hmore x hx) id
  by_cases hid : f.action = id
  · subst hid
    have hlook : s'.flightOf? f.action = some n := by unfold flightOf?; rw [hin]; exact hn
    have hnew : s'.pendingInput f.action = some g.input := by
      simp [Scheduler.pendingInput, hlook, hflights, flights_setFlight hf]
    refine .accepted hnew (by simp [hacc]) ⟨e, List.mem_cons_self, hproc⟩ fun x hx => ?_
    rcases List.mem_cons.mp hx with rfl | hx
    · exact hland _
    · exact (haside x hx).2.2
  · refine .aside ?_ fun x hx => ?_
    · have hlook : s'.flightOf? id = s.flightOf? id := by unfold flightOf?; rw [hin]
      unfold Scheduler.pendingInput
      rw [hlook]
      refine Option.bind_congr fun m hm => ?_
      have hne : m ≠ n := by
        rintro rfl
        obtain ⟨f', -, hf', hact, -⟩ := hcharted.charted id m (mem_of_flightOf? hm)
        cases hf.symm.trans hf'
        exact hid hact
      rw [hflights, flights_setFlight hf, if_neg hne]
    · rcases List.mem_cons.mp hx with rfl | hx
      · obtain ⟨h1, h2⟩ := hother id hid; exact ⟨h1, h2, hland id⟩
      · exact haside x hx

theorem Serving.launched {other : ActionId} {r : Registration} {input : Payload} (hcharted : s.Charted)
    (hnone : s.flightOf? other = none) (hflights : s'.flights = s.flights ++ [Flight.of r input])
    (hin : s'.inFlight = s.inFlight ++ [(other, s.flights.length)]) (id : ActionId) :
    Serving s id [.queued s.flights.length other r.kind input] s' := by
  have hfind : s'.flightOf? id = (s.flightOf? id).or (if other = id then some s.flights.length else none) := by
    unfold flightOf?
    rw [hin, List.find?_append]
    by_cases hid : other = id <;> cases s.inFlight.find? (·.1 = id) <;> simp [hid]
  have hkept (m : Nat) (hm : s.flightOf? id = some m) :
      (s'.flights[m]?).map Flight.input = (s.flights[m]?).map Flight.input := by
    obtain ⟨f, -, hf, -⟩ := hcharted.charted id m (mem_of_flightOf? hm)
    rw [hflights, flights_concat_some hf, hf]
  by_cases hid : other = id
  · subst hid
    have hnew : s'.pendingInput other = some input := by
      simp [Scheduler.pendingInput, hfind, hnone, hflights, Flight.of]
    exact .accepted hnew (by simp [SchedulerEvent.accepted?])
      ⟨_, List.mem_cons_self, by simp [SchedulerEvent.processes]⟩ (by simp [SchedulerEvent.lands])
  · refine .aside ?_ (by simp [SchedulerEvent.accepted?, SchedulerEvent.processes, SchedulerEvent.lands, hid])
    unfold Scheduler.pendingInput
    rw [hfind, if_neg hid, Option.or_none]
    exact Option.bind_congr hkept

theorem Serving.landed_of (hf : s.flights[n]? = some f) (hflights : s'.flights = (s.setFlight n f.landed).flights)
    (hin : s'.inFlight = s.inFlight.filter (·.1 ≠ f.action)) (id : ActionId) :
    Serving s id [.delivered n f.action f.attempts] s' := by
  by_cases hid : f.action = id
  · subst hid
    refine .landed ?_ (by simp [SchedulerEvent.accepted?, SchedulerEvent.processes])
      ⟨_, List.mem_cons_self, by simp [SchedulerEvent.lands]⟩
    have hlook : s'.flightOf? f.action = none := by
      unfold flightOf?
      rw [hin, Option.map_eq_none_iff, List.find?_eq_none]
      intro e he
      simpa using (List.mem_filter.mp he).2
    simp [Scheduler.pendingInput, hlook]
  · refine .aside ?_ (by simp [SchedulerEvent.accepted?, SchedulerEvent.processes, SchedulerEvent.lands, hid])
    have hlook : s'.flightOf? id = s.flightOf? id := by
      unfold flightOf?
      rw [hin, List.find?_filter]
      congr 2
      funext e
      by_cases he : e.1 = id
      · simp [he, Ne.symm hid]
      · simp [he]
    unfold Scheduler.pendingInput
    rw [hlook]
    refine Option.bind_congr fun m _ => ?_
    rw [hflights]
    exact map_setFlight (g := f.landed) Flight.input hf rfl m

/-- What a move of an open scheduler does to the pending input of an action. -/
theorem Move.serving (hm : Move s act s' events) (h : s.Sane) (hopen : s'.isClosed = false) (id : ActionId) :
    Serving s id events s' := by
  have hopened := hm.keeps.opened hopen
  have hclosing {k : Closing} (hk : s.closing = some k) : False := by
    have := h.regular.closing (by rw [hk]; rfl)
    rw [hopened] at this
    cases this
  have hpooled {c : Caller} {x : Call} {rest : List Call} (hcs : s.callsOf c = x :: rest)
      (hx : x.suits false c = false) : False := by
    rw [h.regular.orderly.suited h.pooled hcs] at hx
    cases hx
  cases hm with
  | turned ht => exact ht.serving h.charted hopened id
  | launched _ _ hnone => exact .launched h.charted hnone rfl rfl id
  | @superseded _ _ _ input f _ _ hf hc =>
      refine .renewed (g := f.renewed input) h.charted hopened hf hc ?_ ?_ ?_ ?_ (fun id hid => ?_) (fun id => ?_) ?_ id
      · rfl
      · rfl
      · simp [SchedulerEvent.accepted?, Flight.renewed]
      · simp [SchedulerEvent.processes]
      · simp [SchedulerEvent.accepted?, SchedulerEvent.processes, hid]
      · rfl
      · simp [SchedulerEvent.isAside]
  | @rearmed _ _ _ input f _ _ hf hd =>
      refine .renewed (g := { f.renewed input with output := none, phase := .queued }) h.charted hopened hf
        (by simp [hd]) ?_ ?_ ?_ ?_ (fun id hid => ?_) (fun id => ?_) ?_ id
      · rfl
      · rfl
      · simp [SchedulerEvent.accepted?, Flight.renewed]
      · simp [SchedulerEvent.processes]
      · simp [SchedulerEvent.accepted?, SchedulerEvent.processes, hid]
      · rfl
      · simp
  | submitted => exact .of_aside rfl (fun _ => rfl) (submission_aside _ _ _)
  | collected _ hf => refine .landed_of hf ?_ ?_ id <;> rfl
  | inlined _ hsync => cases h.pooled.symm.trans hsync
  | ranInline hcs => exact (hpooled hcs rfl).elim
  | took hcs => exact (hpooled hcs rfl).elim
  | worked _ _ _ hf hl => exact .of_aside rfl (map_setFlight Flight.input hf hl.input) hl.aside
  | warned =>
      refine .of_aside rfl ?_ (by simp [SchedulerEvent.isAside])
      exact map_modify (s := s) (fun f => (rfl : f.interrupt.input = f.input)) _
  | idled => exact .of_aside rfl (fun _ => rfl) (pooled_aside _)
  | shut => cases hopen
  | halted _ hk => exact (hclosing hk).elim
  | alarmed _ hk => exact (hclosing hk).elim
  | abandoned => exact .of_aside rfl (fun _ => rfl) (by simp [SchedulerEvent.isAside])
  | reported _ hk => exact (hclosing hk).elim
  | undone _ hk => exact (hclosing hk).elim
  | gaveUp _ hk => exact (hclosing hk).elim
  | _ => exact .of_aside rfl (fun _ => rfl) (by simp [SchedulerEvent.isAside])

end Scheduler

end SingleFlight
