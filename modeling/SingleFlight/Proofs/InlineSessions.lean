import SingleFlight.Proofs.Sessions

/-!
# Sessions without a pool

Without a pool the owner serves every request itself, and there is one step only that it can take next. So a session
is settled by its calls, and it shows the transcript.
-/

namespace SingleFlight

open Scheduler

variable [Payloads]

/-- The flight with its outcome stored. -/
def Flight.fulfilled (f : Flight) (o : Outcome) : Flight := { f with output := some o, phase := .completed }

theorem Flight.start_of {r : Registration} {input : Payload} (hcopy : ∃ copy, input.copy = .ok copy) :
    (Flight.of r input).start = ((Flight.of r input).begun, .invoke (Erased.copied input) ⟨0⟩) := by
  obtain ⟨copy, hcopy⟩ := hcopy
  rw [Payload.copied_of_copy hcopy]
  have hlimit : ¬ attemptLimit ≤ 0 + 1 := by decide
  simp [start, Flight.of, hcopy, hlimit, begun]

namespace Scheduler

variable {s s' : Scheduler} {act : SchedulerAct} {answers : Answers} {seen : List Sight} {n : Nat} {r : Registration}
  {input : Payload} {x y : Prospect} {events : List SchedulerEvent}

/-! ## What the owner does next -/

/-- The step that the innermost call of the owner takes next. -/
def due (s : Scheduler) (answers : Answers) (seen : List Sight) : SchedulerAct :=
  match s.callsOf .owner with
  | .running n (.invoking input _) :: _ =>
    .reply .owner (answers seen (((s.flights[n]?).map Flight.action).getD default) input)
  | .calling _ :: _ => .leave .owner none
  | _ => .advance .owner none

/-- Without a pool, and as long as only the owner makes calls, nothing else can happen. -/
theorem due_of_obeys (hpool : s.pool = none) (hothers : ∀ c, c ≠ .owner → s.callsOf c = [])
    (hobeys : s.Obeys answers seen act) (h : s.step act = some (s', events)) : act = s.due answers seen := by
  cases act with
  | apply | close => exact hobeys.elim
  | run job => simp [step, isSynchronous, hpool] at h
  | advance c refusal =>
      obtain rfl : refusal = none := hobeys
      by_cases hc : c = .owner
      · subst hc
        unfold due
        split
        · rename_i hcs; simp [step, advance, hcs, advanceCall, runInline, runStep] at h
        · rename_i hcs; simp [step, advance, hcs, advanceCall] at h
        · rfl
      · cases c <;> simp [step, advance, hothers _ hc, advanceWorker, hpool] at h
  | reply c answer =>
      obtain ⟨n, input, token, f, hinside, hf, rfl⟩ := hobeys
      by_cases hc : c = .owner
      · subst hc
        unfold inside? at hinside
        split at hinside
        · rename_i hcs
          cases hinside
          simp [due, hcs, hf]
        · rename_i e; cases e
        · cases hinside
      · cases c <;> simp [inside?, hothers _ hc, hpool] at hinside
  | leave c panic =>
      obtain rfl : panic = none := hobeys
      by_cases hc : c = .owner
      · subst hc
        simp only [step, leave] at h
        split at h
        · rename_i hcs _; simp [due, hcs]
        · rename_i e; cases e
        · cases h
      · simp [step, leave, hothers _ hc] at h
  | expire w => simp [step, workerStep, hpool] at h
  | abandon c => simp [step, isAwaiting, hpool] at h

/-! ## The course of a request -/

/-- `Stand s r input x`: how far the owner is with the request that it serves, or with closing the scheduler. -/
inductive Stand (s : Scheduler) (r : Registration) (input : Payload) : Prospect → Prop
  | starting {n : Nat} : s.callsOf .owner = [.running n .starting] → s.flights[n]? = some (Flight.of r input) →
      (∃ copy, input.copy = .ok copy) → r.accepts input = true → Stand s r input .ahead
  | invoking {n : Nat} : s.callsOf .owner = [.running n (.invoking (Erased.copied input) ⟨0⟩)] →
      s.flights[n]? = some (Flight.of r input).begun → Stand s r input .inside
  | settling {n : Nat} {o : Outcome} : s.callsOf .owner = [.running n (.settling ⟨0⟩ o)] →
      s.flights[n]? = some (Flight.of r input).begun → Stand s r input (.ended o)
  | taking {n : Nat} {o : Outcome} : s.callsOf .owner = [.taking n] →
      s.flights[n]? = some ((Flight.of r input).begun.fulfilled o) → Stand s r input (.ended o)
  | delivering {n : Nat} {f} {o : Outcome} : s.callsOf .owner = [.delivering n o] → s.flights[n]? = some f → f.action = r.id →
      Stand s r input (.ended o)
  | calling {n : Nat} : s.callsOf .owner = [.calling n] → Stand s r input .told
  | closing {k} : s.callsOf .owner = [.closing] → s.closing = some k → k.stage = .dropping [] → Stand s r input .told
  | free : s.callsOf .owner = [] → Stand s r input .told

/-- Only the calls of the owner and their flights change. -/
structure Onward (s s' : Scheduler) : Prop where
  pool : s'.pool = s.pool
  inFlight : s'.inFlight = s.inFlight
  isClosed : s'.isClosed = s.isClosed
  registrations : s'.registrations = s.registrations
  others : ∀ c, c ≠ .owner → s'.callsOf c = s.callsOf c

theorem Onward.setCalls (s : Scheduler) (cs : List Call) : Onward s (s.setCalls .owner cs) :=
  ⟨rfl, rfl, rfl, rfl, fun c hc => by rw [callsOf_setCalls, if_neg hc]⟩

theorem Onward.setFlight (s : Scheduler) (n : Nat) (f : Flight) (cs : List Call) :
    Onward s ((s.setFlight n f).setCalls .owner cs) :=
  ⟨rfl, rfl, rfl, rfl, fun c hc => by rw [callsOf_setCalls, if_neg hc]; rfl⟩

/-- A request that the owner serves gets on, with what is seen of it. -/
structure GoesOn (answers : Answers) (seen : List Sight) (s : Scheduler) (r : Registration) (input : Payload)
    (x : Prospect) (s' : Scheduler) (events : List SchedulerEvent) : Prop where
  possible : s.step (s.due answers seen) = some (s', events)
  obeys : s.Obeys answers seen (s.due answers seen)
  onward : Onward s s'
  jobs : jobsOf events = []
  closer : System.weight (s'.callsOf .owner) < System.weight (s.callsOf .owner)
  next : ∃ y, s'.Stand r input y ∧ Prospect.Next answers r input seen x (s.sights (s.due answers seen) s' events) y

theorem GoesOn.of_advance (hdue : s.due answers seen = .advance .owner none)
    (hstep : s.step (.advance .owner none) = some (s', events)) (honward : Onward s s') (hjobs : jobsOf events = [])
    (hcloser : System.weight (s'.callsOf .owner) < System.weight (s.callsOf .owner)) (hstand : s'.Stand r input y)
    (hnext : Prospect.Next answers r input seen x (events.filterMap s'.sight?) y) :
    GoesOn answers seen s r input x s' events :=
  ⟨hdue ▸ hstep, hdue ▸ rfl, honward, hjobs, hcloser, y, hstand, hdue ▸ hnext⟩

theorem Stand.next (h : s.Stand r input x) (hr : x ≠ .told → s.registration? r.id = some r)
    (hbusy : s.callsOf .owner ≠ []) (answers : Answers) (seen : List Sight) :
    ∃ s' events, GoesOn answers seen s r input x s' events := by
  cases h with
  | @starting n hcs hf hcopy hacc =>
      have hr := hr (by simp)
      let given := Erased.copied input
      let s' := (s.setFlight n (Flight.of r input).begun).setCalls .owner [.running n (.invoking given ⟨0⟩)]
      have hf' : s'.flights[n]? = some (Flight.of r input).begun := by simp [s', flights_setFlight hf]
      have hstep : s.step (.advance .owner none) = some (s', [.called .owner n r.id given ⟨0⟩]) := by
        have hid : (Flight.of r input).action = r.id := rfl
        simp only [step, advance, hcs, advanceCall, runInline, runStep, hf, Option.bind_some, Flight.start_of hcopy, hid, hr,
          Option.map_some, Registration.callInput_of_accepts (Registration.accepts_copied hacc)]
        rfl
      have hseen : [SchedulerEvent.called .owner n r.id given ⟨0⟩].filterMap s'.sight? = [.called r.id given 0 none] := by
        simp [sight?, hf', Flight.begun, Flight.of, Token.check, Token.isSuperseded]
      exact ⟨s', _, .of_advance (by simp only [due, hcs]) hstep (.setFlight _ _ _ _) rfl
        (by simp [s', hcs, System.weight, Call.rank]) (.invoking (callsOf_setCalls_self _ _ _) hf') (hseen ▸ .called)⟩
  | @invoking n hcs hf =>
      have hr := hr (by simp)
      have hid : (Flight.of r input).begun.action = r.id := rfl
      let given := Erased.copied input
      let answer := answers seen r.id given
      let s' := s.setCalls .owner [.running n (.settling ⟨0⟩ (Flight.caught (r.outcome answer)))]
      have hdue : s.due answers seen = .reply .owner answer := by simp only [due, hcs, hf]; rfl
      have hinside : s.inside? .owner = some (n, given, ⟨0⟩) := by simp only [inside?, hcs, given]
      have hstep : s.step (.reply .owner answer) = some (s', []) := by
        simp only [step, reply, hcs, hf, Option.bind_some, hid, hr, Option.map_some]
        rfl
      have hseen : s.sights (.reply .owner answer) s' [] = [.ended r.id answer none] := by
        simp [sights, ending?, hinside, hf, Flight.begun, Flight.of, Token.check, Token.isSuperseded]
      refine ⟨s', [], hdue ▸ hstep, hdue ▸ ⟨n, given, ⟨0⟩, _, hinside, hf, rfl⟩, .setCalls _ _, rfl,
        by simp [s', hcs, System.weight, Call.rank], _, .settling (callsOf_setCalls_self _ _ _) hf, ?_⟩
      rw [hdue, hseen]; exact .answered rfl
  | @settling n o hcs hf =>
      let s' := (s.setFlight n ((Flight.of r input).begun.fulfilled o)).setCalls .owner [.taking n]
      have hstep : s.step (.advance .owner none) = some (s', [.completed n r.id 0 o.toBool]) := by
        simp only [step, advance, hcs, advanceCall, runInline, runStep, hf, Option.bind_some]
        rfl
      exact ⟨s', _, .of_advance (by simp only [due, hcs]) hstep (.setFlight _ _ _ _) rfl
        (by simp [s', hcs, System.weight, Call.rank])
        (.taking (callsOf_setCalls_self _ _ _) (by simp [s', flights_setFlight hf])) .still⟩
  | @taking n o hcs hf =>
      let f := (Flight.of r input).begun.fulfilled o
      let s' := (s.setFlight n f.landed).setCalls .owner [.delivering n o]
      have hstep : s.step (.advance .owner none) = some (s', [.delivered n r.id f.attempts]) := by
        simp only [step, advance, hcs, advanceCall, takeOutcome, hf, Option.map_some]
        rfl
      exact ⟨s', _, .of_advance (by simp only [due, hcs]) hstep (.setFlight _ _ _ _) rfl
        (by simp [s', hcs, System.weight, Call.rank])
        (.delivering (f := f.landed) (callsOf_setCalls_self _ _ _) (by simp [s', flights_setFlight hf]) rfl) .still⟩
  | @delivering n f o hcs hf hact =>
      have hr := hr (by simp)
      have hstep : ∃ cs events, s.step (.advance .owner none) = some (s.setCalls .owner cs, events) ∧
          (cs = [.calling n] ∨ cs = []) ∧ jobsOf events = [] ∧ ∀ u : Scheduler, events.filterMap u.sight? = [r.hears o] := by
        simp only [step, advance, hcs, advanceCall, deliver, hf, Option.bind_some, hact, hr, Option.map_some,
          Registration.hears]
        cases r.deliver o with
        | result | sink => exact ⟨_, _, rfl, .inl rfl, rfl, fun _ => rfl⟩
        | unreported | none => exact ⟨_, _, rfl, .inr rfl, rfl, fun _ => rfl⟩
      obtain ⟨cs, events, hstep, hcs', hjobs, hseen⟩ := hstep
      have hnext : Prospect.Next answers r input seen (.ended o) (events.filterMap (s.setCalls .owner cs).sight?) .told := by
        rw [hseen]; exact .heard
      refine ⟨_, events, .of_advance (by simp only [due, hcs]) hstep (.setCalls _ _) hjobs ?_ ?_ hnext⟩
      · rcases hcs' with rfl | rfl <;> simp [hcs, System.weight, Call.rank]
      · rcases hcs' with rfl | rfl
        · exact .calling (callsOf_setCalls_self _ _ _)
        · exact .free (callsOf_setCalls_self _ _ _)
  | @calling n hcs =>
      have hdue : s.due answers seen = .leave .owner none := by simp only [due, hcs]
      have hstep : s.step (.leave .owner none) = some (s.setCalls .owner [], [.returned .owner]) := by
        simp only [step, leave, hcs]; rfl
      exact ⟨_, _, hdue ▸ hstep, hdue ▸ rfl, .setCalls _ _, rfl, by simp [hcs, System.weight], .told,
        .free (callsOf_setCalls_self _ _ _), hdue ▸ .still⟩
  | @closing k hcs hk hstage =>
      have hstep : s.step (.advance .owner none)
          = some (s.setCalls .owner [], [.closed k.flights.length, .returned .owner]) := by
        simp only [step, advance, hcs, advanceCall, advanceClosing, hk, Option.bind_some, hstage]; rfl
      exact ⟨_, _, .of_advance (by simp only [due, hcs]) hstep (.setCalls _ _) rfl (by simp [hcs, System.weight])
        (.free (callsOf_setCalls_self _ _ _)) .still⟩
  | free hcs => exact absurd hcs hbusy

end Scheduler

namespace System

variable {answers : Answers} {registrations : List Registration} {sys sys' : System} {act : SchedulerAct}
  {seen : List Sight} {events : List SchedulerEvent} {id : ActionId} {r : Registration} {input : Payload} {x : Prospect}

/-! ## Whole sessions -/

/-- Without a pool, the owner serves a request or closes the scheduler, and nobody else does anything. -/
structure Solo (sys : System) (r : Registration) (input : Payload) (x : Prospect) : Prop where
  poolless : sys.scheduler.pool = none
  grounded : sys.scheduler.inFlight = []
  numbered : Numbered sys.scheduler.registrations
  others : ∀ c, c ≠ .owner → sys.scheduler.callsOf c = []
  jobs : sys.loop.queue = []
  registered : x ≠ .told → sys.scheduler.registration? r.id = some r
  stand : sys.scheduler.Stand r input x

theorem Begins.solo (hb : sys.Begins) (hsync : sys.scheduler.pool = none) : Solo sys default default .told :=
  ⟨hsync, hb.inFlight, hb.numbered, fun c _ => hb.callsOf c, by rw [hb.loop], fun h => absurd rfl h, .free (hb.callsOf _)⟩

/-- Every step of the owner shows the next thing of its request, or nothing. -/
theorem Solo.step (h : Solo sys r input x) (hobeys : sys.scheduler.Obeys answers seen act)
    (hstep : sys.step (.thread act) = some (sys', events)) :
    sys'.scheduler.isClosed = sys.scheduler.isClosed ∧
      weight (sys'.scheduler.callsOf .owner) < weight (sys.scheduler.callsOf .owner) ∧
      ∃ y, Solo sys' r input y ∧
        Prospect.Next answers r input seen x (sys.scheduler.sights act sys'.scheduler events) y := by
  obtain ⟨loop, hyield, hstep⟩ := Option.bind_eq_some_iff.mp hstep
  obtain ⟨⟨s', inner⟩, hs, hstep⟩ := Option.map_eq_some_iff.mp hstep
  cases hstep
  obtain rfl := due_of_obeys h.poolless h.others hobeys hs
  have hbusy : sys.scheduler.callsOf .owner ≠ [] := by
    intro hfree
    simp [due, hfree, Scheduler.step, advance] at hs
  obtain ⟨u, events', hgo⟩ := h.stand.next h.registered hbusy answers seen
  cases hs.symm.trans hgo.possible
  obtain ⟨y, hstand, hnext⟩ := hgo.next
  have hregs (id : ActionId) : s'.registration? id = sys.scheduler.registration? id := by
    rw [registration?, hgo.onward.registrations]; rfl
  refine ⟨hgo.onward.isClosed, hgo.closer, y, ⟨hgo.onward.pool.trans h.poolless, hgo.onward.inFlight.trans h.grounded,
    hgo.onward.registrations ▸ h.numbered, fun c hc => (hgo.onward.others c hc).trans (h.others c hc), ?_,
    fun hy => (hregs _).trans (h.registered (hnext.before hy)), hstand⟩, hnext⟩
  obtain ⟨-, hqueue⟩ := OwnerLoop.yield_cases hyield
  show (loop.postAll (events.filterMap SchedulerEvent.job?)).queue = []
  rw [show events.filterMap SchedulerEvent.job? = [] from hgo.jobs]
  rcases hqueue with ⟨-, e⟩ | ⟨job, e, -⟩
  · exact e.trans h.jobs
  · unfold due at e; split at e <;> cases e

theorem Solo.rests (answers : Answers) (h : Solo sys r input x) (seen : List Sight) :
    ∃ sys' seen', Follows answers sys seen sys' seen' ∧ sys'.Quiescent := by
  refine Follows.rests (Q := fun sys => ∃ x, Solo sys r input x)
    (measure fun sys : System => weight (sys.scheduler.callsOf .owner)).wf ?_ ⟨x, h⟩ seen
  rintro sys seen ⟨x, h⟩
  by_cases hfree : sys.scheduler.callsOf .owner = []
  · exact .inl ⟨hfree, h.jobs, by simp [h.poolless], by simp [h.poolless]⟩
  obtain ⟨s', events, hgo⟩ := h.stand.next h.registered hfree answers seen
  have hrun (job : Posted) : sys.scheduler.due answers seen ≠ .run job := by
    unfold due; split <;> simp
  obtain ⟨sys', hstep, -⟩ := step_thread hrun hgo.possible
  obtain ⟨-, hlt, y, hsolo, -⟩ := h.step hgo.obeys hstep
  exact .inr ⟨_, sys', events, hgo.obeys, hstep, ⟨y, hsolo⟩, hlt⟩

/-! ## Calls at rest -/

theorem Solo.told (h : Solo sys r input x) (hfree : sys.scheduler.callsOf .owner = []) : x = .told := by
  cases h.stand with
  | starting hcs | invoking hcs | settling hcs | taking hcs | delivering hcs => cases hfree.symm.trans hcs
  | calling | closing | free => rfl

theorem Solo.request {given : Payload} {r' : Registration} (h : Solo sys r input x)
    (hfree : sys.scheduler.callsOf .owner = []) (hopen : sys.scheduler.isClosed = false)
    (hcopy : ∃ copy, given.copy = .ok copy) (hr : sys.scheduler.registration? id = some r')
    (hacc : r'.accepts given = true) :
    ∃ sys', sys.step (.thread (.apply .owner id given)) = some (sys', []) ∧ Solo sys' r' given .ahead ∧
      sys'.scheduler.isClosed = false := by
  have hisFree : sys.scheduler.isFree .owner = true := by simp [isFree, hfree]
  let started : Scheduler := { sys.scheduler with flights := sys.scheduler.flights ++ [Flight.of r' given] }
  let s' : Scheduler := started.push .owner (.running sys.scheduler.flights.length .starting)
  have happly : sys.scheduler.apply .owner id given = (s', []) := by
    have hsync : sys.scheduler.isSynchronous = true := by simp [isSynchronous, h.poolless]
    simp [Scheduler.apply, hr, hacc, hopen, hsync, s', started]
  have hstep : sys.step (.thread (.apply .owner id given)) = some ({ sys with scheduler := s' }, []) :=
    step_jobless (by simp) (by simp [Scheduler.step, hisFree, happly]) rfl
  have hcalls (c : Caller) : s'.callsOf c
      = if c = .owner then [.running sys.scheduler.flights.length .starting] else sys.scheduler.callsOf c := by
    rw [← hfree]; exact callsOf_setCalls _ _ _ _
  have hid : r'.id = id := h.numbered id.index r' hr
  refine ⟨_, hstep, ⟨h.poolless, h.grounded, h.numbered, fun c hc => ?_, h.jobs, fun _ => by rw [hid]; exact hr,
    .starting (by rw [hcalls, if_pos rfl]) (by simp [s', started, push]) hcopy hacc⟩, hopen⟩
  rw [hcalls, if_neg hc]; exact h.others c hc

theorem Solo.close (h : Solo sys r input x) (hfree : sys.scheduler.callsOf .owner = [])
    (hopen : sys.scheduler.isClosed = false) :
    ∃ sys', sys.step (.thread (.close .owner)) = some (sys', []) ∧ Solo sys' r input .told ∧
      sys'.scheduler.isClosed = true := by
  have hisFree : sys.scheduler.isFree .owner = true := by simp [isFree, hfree]
  let flights := sys.scheduler.inFlight.map (·.2)
  let k : Closing := { flights, stage := .dropping flights }
  have hstage : k.stage = .dropping [] := by simp [k, flights, h.grounded]
  let s' : Scheduler := { sys.scheduler with isClosed := true, inFlight := [], closing := some k }.push .owner .closing
  have hclose : sys.scheduler.close .owner = (s', []) := by
    have hsync : sys.scheduler.isSynchronous = true := by simp [isSynchronous, h.poolless]
    simp only [Scheduler.close, hopen, hsync, Bool.false_eq_true, if_false, if_true]
    rfl
  have hstep : sys.step (.thread (.close .owner)) = some ({ sys with scheduler := s' }, []) :=
    step_jobless (by simp) (by simp [Scheduler.step, hisFree, hclose]) rfl
  have hcalls (c : Caller) : s'.callsOf c = if c = .owner then [.closing] else sys.scheduler.callsOf c := by
    rw [← hfree]; exact callsOf_setCalls _ _ _ _
  refine ⟨_, hstep, ⟨h.poolless, rfl, h.numbered, fun c hc => ?_, h.jobs, fun hx => absurd rfl hx,
    .closing (by rw [hcalls, if_pos rfl]) rfl hstage⟩, rfl⟩
  rw [hcalls, if_neg hc]; exact h.others c hc

/-! ## Where a session is heading -/

/-- Without a pool, a session is where the owner is with its last call. -/
inductive InlineHeading (answers : Answers) (registrations : List Registration) (sys : System) (seen : List Sight) :
    Bool × List Sight → Prop
  | intro {closed r input x goal} : Solo sys r input x → sys.scheduler.isClosed = closed →
      sys.scheduler.registrations = registrations → seen ++ x.rest answers r input seen = goal →
      InlineHeading answers registrations sys seen (closed, goal)

/-- Without a pool, a session shows the transcript of its calls. -/
theorem inline_foresees (answers : Answers) (registrations : List Registration) :
    Foresees answers registrations HostCall.Copyable (InlineHeading answers registrations) where
  step := by
    rintro sys seen goal act sys' events ⟨hsolo, hclosed, hregs, hgoal⟩ hobeys hstep
    obtain ⟨hkept, -, y, hsolo', hnext⟩ := hsolo.step hobeys hstep
    exact ⟨hsolo', hkept.trans hclosed, (step_registrations hstep).trans hregs, hnext.rest.trans hgoal⟩
  arrives := by
    rintro sys seen goal ⟨hsolo, -, -, hgoal⟩ hq
    obtain rfl := hsolo.told hq.calls
    exact hgoal.symm.trans (List.append_nil _)
  rests := by
    rintro sys seen goal ⟨hsolo, -⟩
    exact hsolo.rests answers seen
  call := by
    rintro sys seen closed call ⟨hsolo, hclosed, hregs, hgoal⟩ hq hcopy
    obtain rfl := hsolo.told hq.calls
    by_cases hno : sys.scheduler.isClosed = true ∨ ∃ id input, call = .apply id input ∧
        ∀ r, sys.scheduler.registration? id = some r → r.accepts input = false
    · obtain ⟨events, hstep, hrespond⟩ := call_turned_away answers seen hq.calls hno
      rw [hregs, hclosed] at hrespond
      exact ⟨sys, events, hstep, by rw [hrespond]; exact ⟨hsolo, hclosed, hregs, List.append_nil _⟩⟩
    simp only [not_or, Bool.not_eq_true] at hno
    obtain ⟨hopen, haccepted⟩ := hno
    obtain rfl : closed = false := hclosed.symm.trans hopen
    have hsilent (sys' : System) : seen ++ sys.scheduler.sights call.act sys'.scheduler [] = seen := by
      cases call <;> exact List.append_nil _
    cases call with
    | close =>
        obtain ⟨sys', hstep, hsolo', hclosed'⟩ := hsolo.close hq.calls hopen
        refine ⟨sys', [], hstep, ?_⟩
        rw [hsilent]
        exact ⟨hsolo', hclosed', (step_registrations hstep).trans hregs, List.append_nil _⟩
    | apply id given =>
        obtain ⟨r', hr, hacc⟩ : ∃ r, sys.scheduler.registration? id = some r ∧ r.accepts given = true := by
          refine Classical.byContradiction fun hnone => haccepted ⟨id, given, rfl, fun r hr => ?_⟩
          exact Bool.eq_false_iff.mpr fun hacc => hnone ⟨r, hr, hacc⟩
        obtain ⟨sys', hstep, hsolo', hopen'⟩ := hsolo.request hq.calls hopen hcopy hr hacc
        have hr' : registrations[id.index]? = some r' := hregs ▸ hr
        have hrespond : respond registrations answers (false, seen) (.apply id given)
            = (false, seen ++ r'.serves answers seen given) := by
          simp [respond, hr', hacc]
        refine ⟨sys', [], hstep, ?_⟩
        rw [hsilent, hrespond]
        exact ⟨hsolo', hopen', (step_registrations hstep).trans hregs, rfl⟩

end System

end SingleFlight
