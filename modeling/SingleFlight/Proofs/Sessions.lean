import Mathlib.Data.List.Induction
import SingleFlight.Proofs.Quiescence

/-!
# Sessions

The owner makes its calls one after the other, each when the scheduler is at rest, and in between all threads get on in
any order. What the host sees of such a session are the calls and the ends of its functions, with what their tokens
show, the outcomes that go to its callbacks, and the calls that panic.
-/

namespace SingleFlight

open Scheduler

variable [Payloads]

/-! ## What is seen -/

/-- What the host of a scheduler sees. -/
inductive Sight
  /-- A function is called; its token shows whether it should stop. -/
  | called (id : ActionId) (input : Payload) (generation : UInt64) (shown : Option Cancelled)
  | ended (id : ActionId) (answer : Reply) (shown : Option Cancelled)
  /-- An outcome goes to its callback, if there is one. -/
  | heard (id : ActionId) (kind : ActionKind) (delivery : Delivery)
  /-- A call to the scheduler panics. -/
  | panicked (message : String)

/-- The answers of the functions. They depend on the input and on all that was seen until then, so on how often the
function was called. -/
abbrev Answers := List Sight → ActionId → Payload → Reply

namespace Scheduler

/-- The flight, the input and the token of the function that a thread is inside of. -/
def inside? (s : Scheduler) (c : Caller) : Option (Nat × Payload × Token) :=
  match s.callsOf c, c with
  | .running n (.invoking input token) :: _, _ => some (n, input, token)
  | [], .worker w =>
    match s.pool.bind (·.phase? w) with
    | some (.working n (.running (.invoking input token))) => some (n, input, token)
    | _ => none
  | _, _ => none

/-- What is seen of an event, in the state after it. -/
def sight? (s : Scheduler) : SchedulerEvent → Option Sight
  | .called _ n id input token =>
    some (.called id input token.started ((s.flights[n]?).bind fun f => token.check f.signal))
  | .notified _ _ id kind delivery => some (.heard id kind delivery)
  | .panicked _ message => some (.panicked message)
  | _ => none

/-- What is seen of the end of a function, in the state before it. -/
def ending? (s : Scheduler) : SchedulerAct → Option Sight
  | .reply c answer =>
    (s.inside? c).bind fun (n, _, token) =>
      (s.flights[n]?).map fun f => .ended f.action answer (token.check f.signal)
  | _ => none

/-- What is seen of a step from `s` to `s'`. -/
def sights (s : Scheduler) (act : SchedulerAct) (s' : Scheduler) (events : List SchedulerEvent) : List Sight :=
  (s.ending? act).toList ++ events.filterMap s'.sight?

theorem sights_append {s s' : Scheduler} {act : SchedulerAct} {events more : List SchedulerEvent} :
    s.sights act s' (events ++ more) = s.sights act s' events ++ more.filterMap s'.sight? := by
  rw [sights, sights, List.filterMap_append, List.append_assoc]

theorem sights_pooled {s s' : Scheduler} {act : SchedulerAct} {pooled : List (PoolEvent Nat)} (hact : s.ending? act = none) :
    s.sights act s' (pooled.map .pool) = [] := by
  rw [sights, hact]
  exact List.filterMap_eq_nil_iff.mpr fun e he => by obtain ⟨_, -, rfl⟩ := List.mem_map.mp he; rfl

/-- What may happen while the owner makes no call: threads get on and can be created, functions end with their answers
and callbacks return. -/
def Obeys (answers : Answers) (s : Scheduler) (seen : List Sight) : SchedulerAct → Prop
  | .apply _ _ _ => False
  | .close _ => False
  | .advance _ refusal => refusal = none
  | .reply c answer => ∃ n input token f, s.inside? c = some (n, input, token) ∧ s.flights[n]? = some f ∧
      answer = answers seen f.action input
  | .leave _ panic => panic = none
  | _ => True

end Scheduler

/-! ## Sessions -/

/-- A call of the owner; the request of an action without input has the unit value. -/
inductive HostCall
  | apply (id : ActionId) (input : Payload)
  | close

def HostCall.act : HostCall → SchedulerAct
  | apply id input => .apply .owner id input
  | close => .close .owner

/-- The input of the call can be copied. -/
def HostCall.Copyable : HostCall → Prop
  | .apply _ input => ∃ copy, input.copy = .ok copy
  | .close => True

namespace System

/-- `Follows answers sys seen sys' seen'`: without a call of the owner, `sys` comes to `sys'`. -/
inductive Follows (answers : Answers) (sys : System) (seen : List Sight) : System → List Sight → Prop
  | refl : Follows answers sys seen sys seen
  | step {mid seen' act sys' events} : Follows answers sys seen mid seen' → mid.scheduler.Obeys answers seen' act →
      mid.step (.thread act) = some (sys', events) →
      Follows answers sys seen sys' (seen' ++ mid.scheduler.sights act sys'.scheduler events)

/-- `Session answers start calls sys seen`: the owner made these calls, each at rest, and `seen` was seen until now. -/
inductive Session (answers : Answers) (start : System) : List HostCall → System → List Sight → Prop
  | start : Session answers start [] start []
  | call {calls sys seen call sys' events} : Session answers start calls sys seen → sys.Quiescent →
      sys.step (.thread call.act) = some (sys', events) →
      Session answers start (calls ++ [call]) sys' (seen ++ sys.scheduler.sights call.act sys'.scheduler events)
  | goOn {calls sys seen act sys' events} : Session answers start calls sys seen → sys.scheduler.Obeys answers seen act →
      sys.step (.thread act) = some (sys', events) →
      Session answers start calls sys' (seen ++ sys.scheduler.sights act sys'.scheduler events)

/-- Of a session with these calls exactly this is seen, whatever the order of the steps: a session comes to rest from
wherever it is, and this is what was seen when it is at rest. -/
structure Shows (answers : Answers) (start : System) (calls : List HostCall) (seen : List Sight) : Prop where
  rests : ∃ sys, Session answers start calls sys seen ∧ sys.Quiescent
  goesOn : ∀ sys seen', Session answers start calls sys seen' →
    ∃ sys', Follows answers sys seen' sys' seen ∧ sys'.Quiescent
  only : ∀ sys seen', Session answers start calls sys seen' → sys.Quiescent → seen' = seen

end System

/-! ## Transcripts -/

/-- What is seen of an outcome of the action. -/
def Registration.hears (r : Registration) (o : Outcome) : Sight := .heard r.id r.kind (r.deliver o)

/-- What is seen of a request from the call of the function with a copy of the input on. -/
def Registration.serves (r : Registration) (answers : Answers) (seen : List Sight) (input : Payload) : List Sight :=
  let given := Erased.copied input
  let called : Sight := .called r.id given 0 none
  let answer := answers (seen ++ [called]) r.id given
  [called, .ended r.id answer none, r.hears (Flight.caught (r.outcome answer))]

/-- What was seen after one more call, and whether the scheduler is closed then. -/
def respond (registrations : List Registration) (answers : Answers) : Bool × List Sight → HostCall → Bool × List Sight
  | (_, seen), .close => (true, seen)
  | (closed, seen), .apply id input =>
    match registrations[id.index]? with
    | none => (closed, seen ++ [.panicked (unknownAction id)])
    | some r =>
      if !r.accepts input then (closed, seen ++ [.panicked (r.mismatch input)])
      else if closed then (closed, seen)
      else (closed, seen ++ r.serves answers seen input)

/-- What is seen of the calls: a request is served at once, with a single invocation of its function, and nothing is
seen of the requests after a close. -/
def transcript (registrations : List Registration) (answers : Answers) (calls : List HostCall) : List Sight :=
  (calls.foldl (respond registrations answers) (false, [])).2

/-! ## What is still to be seen -/

/-- How far a request is. -/
inductive Prospect
  /-- The function will be called. -/
  | ahead
  /-- The function is under way. -/
  | inside
  /-- The outcome will go to its callback. -/
  | ended (outcome : Outcome)
  /-- Nothing more will be seen. -/
  | told

namespace Prospect

/-- What is still to be seen of a request. -/
def rest (answers : Answers) (r : Registration) (input : Payload) (seen : List Sight) : Prospect → List Sight
  | ahead => r.serves answers seen input
  | inside =>
    let answer := answers seen r.id (Erased.copied input)
    [.ended r.id answer none, r.hears (Flight.caught (r.outcome answer))]
  | ended o => [r.hears o]
  | told => []

/-- What is seen of a step of a request. -/
inductive Next (answers : Answers) (r : Registration) (input : Payload) (seen : List Sight) :
    Prospect → List Sight → Prospect → Prop
  | still {x : Prospect} : Next answers r input seen x [] x
  | called : Next answers r input seen ahead [.called r.id (Erased.copied input) 0 none] inside
  | answered {answer} : answer = answers seen r.id (Erased.copied input) →
      Next answers r input seen inside [.ended r.id answer none] (ended (Flight.caught (r.outcome answer)))
  | heard {o} : Next answers r input seen (ended o) [r.hears o] told

theorem Next.rest {answers : Answers} {r : Registration} {input : Payload} {seen shown : List Sight} {x y : Prospect}
    (h : Next answers r input seen x shown y) :
    seen ++ shown ++ y.rest answers r input (seen ++ shown) = seen ++ x.rest answers r input seen := by
  cases h with
  | still => simp
  | called => simp [Prospect.rest, Registration.serves]
  | answered h => subst h; simp [Prospect.rest]
  | heard => simp [Prospect.rest]

theorem Next.before {answers : Answers} {r : Registration} {input : Payload} {seen shown : List Sight} {x y : Prospect}
    (h : Next answers r input seen x shown y) (hy : y ≠ .told) : x ≠ .told := by
  cases h with
  | still => exact hy
  | _ => simp

end Prospect

namespace System

variable {answers : Answers} {registrations : List Registration} {start sys sys' sys₁ : System} {calls : List HostCall}
  {seen seen' seen₁ : List Sight} {act : SchedulerAct} {events : List SchedulerEvent}

theorem Follows.trans (h : Follows answers sys seen sys₁ seen₁) (k : Follows answers sys₁ seen₁ sys' seen') :
    Follows answers sys seen sys' seen' := by
  induction k with
  | refl => exact h
  | step _ hobeys hstep ih => exact ih.step hobeys hstep

theorem Follows.head (hobeys : sys.scheduler.Obeys answers seen act) (hstep : sys.step (.thread act) = some (sys₁, events))
    (h : Follows answers sys₁ (seen ++ sys.scheduler.sights act sys₁.scheduler events) sys' seen') :
    Follows answers sys seen sys' seen' :=
  (Follows.refl.step hobeys hstep).trans h

/-- What gets on until it is at rest, and closer with every step, comes to rest. -/
theorem Follows.rests {closer : System → System → Prop} {Q : System → Prop} (hwf : WellFounded closer)
    (hgo : ∀ sys seen, Q sys → sys.Quiescent ∨ ∃ act sys' events, sys.scheduler.Obeys answers seen act ∧
      sys.step (.thread act) = some (sys', events) ∧ Q sys' ∧ closer sys' sys)
    (h : Q sys) (seen : List Sight) : ∃ sys' seen', Follows answers sys seen sys' seen' ∧ sys'.Quiescent := by
  induction sys using hwf.induction generalizing seen with
  | _ sys ih =>
      rcases hgo sys seen h with hq | ⟨act, mid, events, hobeys, hstep, hmid, hcloser⟩
      · exact ⟨sys, seen, .refl, hq⟩
      · obtain ⟨sys', seen', hf, hq⟩ := ih mid hcloser hmid _
        exact ⟨sys', seen', hf.head hobeys hstep, hq⟩

theorem Session.follows (h : Session answers start calls sys seen) (k : Follows answers sys seen sys' seen') :
    Session answers start calls sys' seen' := by
  induction k with
  | refl => exact h
  | step _ hobeys hstep ih => exact ih.goOn hobeys hstep

theorem step_registrations {act : SystemAct} (h : sys.step act = some (sys', events)) :
    sys'.scheduler.registrations = sys.scheduler.registrations :=
  step_scheduler (P := fun s => s.registrations = sys.scheduler.registrations) h rfl fun hm => hm.keeps.registrations

/-! ## Calls that change nothing -/

theorem call_turned_away {call : HostCall} (answers : Answers) (seen : List Sight)
    (hfree : sys.scheduler.callsOf .owner = [])
    (h : sys.scheduler.isClosed = true ∨ ∃ id input, call = .apply id input ∧
      ∀ r, sys.scheduler.registration? id = some r → r.accepts input = false) :
    ∃ events, sys.step (.thread call.act) = some (sys, events) ∧
      respond sys.scheduler.registrations answers (sys.scheduler.isClosed, seen) call
        = (sys.scheduler.isClosed, seen ++ sys.scheduler.sights call.act sys.scheduler events) := by
  have hisFree : sys.scheduler.isFree .owner = true := by simp [isFree, hfree]
  cases call with
  | close =>
      have hclosed : sys.scheduler.isClosed = true := by
        rcases h with h | ⟨_, _, e, -⟩
        · exact h
        · cases e
      refine ⟨[.returned .owner], ?_, by simp [respond, hclosed, sights, ending?, HostCall.act, sight?]⟩
      exact step_jobless (by simp [HostCall.act])
        (by simp [HostCall.act, Scheduler.step, hisFree, Scheduler.close, hclosed]) rfl
  | apply id input =>
      have hstep {events : List SchedulerEvent} (hjobs : jobsOf events = [])
          (happly : sys.scheduler.apply .owner id input = (sys.scheduler, events)) :
          sys.step (.thread (HostCall.apply id input).act) = some (sys, events) :=
        step_jobless (by simp [HostCall.act]) (by simp [HostCall.act, Scheduler.step, hisFree, happly]) hjobs
      cases hr : sys.scheduler.registration? id with
      | none =>
          refine ⟨[.panicked .owner (unknownAction id)], hstep rfl (by simp only [Scheduler.apply, hr]), ?_⟩
          have : sys.scheduler.registrations[id.index]? = none := hr
          simp [respond, this, sights, ending?, HostCall.act, sight?]
      | some r =>
          have hr' : sys.scheduler.registrations[id.index]? = some r := hr
          cases hacc : r.accepts input with
          | false =>
              refine ⟨[.panicked .owner (r.mismatch input)], hstep rfl (by simp [Scheduler.apply, hr, hacc]), ?_⟩
              simp [respond, hr', hacc, sights, ending?, HostCall.act, sight?]
          | true =>
              have hclosed : sys.scheduler.isClosed = true := by
                rcases h with h | ⟨_, _, e, hno⟩
                · exact h
                · cases e; cases (hno r hr).symm.trans hacc
              refine ⟨[.dropped id .schedulerClosed, .returned .owner],
                hstep rfl (by simp [Scheduler.apply, hr, hacc, hclosed]), ?_⟩
              simp [respond, hr', hacc, hclosed, sights, ending?, HostCall.act, sight?]

/-! ## Where a session is heading -/

/-- `Heading sys seen (closed, goal)` foresees that `goal` will have been seen at the next rest. -/
structure Foresees (answers : Answers) (registrations : List Registration) (allowed : HostCall → Prop)
    (Heading : System → List Sight → Bool × List Sight → Prop) : Prop where
  call : ∀ {sys seen closed call}, Heading sys seen (closed, seen) → sys.Quiescent → allowed call →
    ∃ sys' events, sys.step (.thread call.act) = some (sys', events) ∧
      Heading sys' (seen ++ sys.scheduler.sights call.act sys'.scheduler events)
        (respond registrations answers (closed, seen) call)
  step : ∀ {sys seen goal act sys' events}, Heading sys seen goal → sys.scheduler.Obeys answers seen act →
    sys.step (.thread act) = some (sys', events) →
    Heading sys' (seen ++ sys.scheduler.sights act sys'.scheduler events) goal
  arrives : ∀ {sys seen goal}, Heading sys seen goal → sys.Quiescent → goal.2 = seen
  rests : ∀ {sys seen goal}, Heading sys seen goal → ∃ sys' seen', Follows answers sys seen sys' seen' ∧ sys'.Quiescent

variable {allowed : HostCall → Prop} {Heading : System → List Sight → Bool × List Sight → Prop} {goal : Bool × List Sight}

theorem Foresees.follows (h : Foresees answers registrations allowed Heading) (hk : Heading sys seen goal)
    (hf : Follows answers sys seen sys' seen') : Heading sys' seen' goal := by
  induction hf with
  | refl => exact hk
  | step _ hobeys hstep ih => exact h.step ih hobeys hstep

theorem Foresees.session (h : Foresees answers registrations allowed Heading) (hstart : Heading start [] (false, []))
    (hs : Session answers start calls sys seen) (hcalls : ∀ call ∈ calls, allowed call) :
    Heading sys seen (calls.foldl (respond registrations answers) (false, [])) := by
  induction hs with
  | start => exact hstart
  | @call calls sys seen call sys' events hs hq hstep ih =>
      have hk := ih fun call hmem => hcalls call (List.mem_append_left _ hmem)
      generalize hgoal : calls.foldl (respond registrations answers) (false, []) = goal at hk
      obtain ⟨closed, seen'⟩ := goal
      obtain rfl : seen' = seen := h.arrives hk hq
      obtain ⟨sys₁, events₁, hstep₁, hk₁⟩ := h.call hk hq (hcalls call (by simp))
      cases hstep.symm.trans hstep₁
      rw [List.foldl_append, hgoal]
      exact hk₁
  | goOn _ hobeys hstep ih => exact h.step (ih hcalls) hobeys hstep

/-- What is foreseen is what a session shows. -/
theorem Foresees.shows (h : Foresees answers registrations allowed Heading) (hstart : Heading start [] (false, []))
    (hcalls : ∀ call ∈ calls, allowed call) : Shows answers start calls (transcript registrations answers calls) := by
  have honly {sys : System} {seen : List Sight} (hs : Session answers start calls sys seen) (hq : sys.Quiescent) :
      seen = transcript registrations answers calls :=
    (h.arrives (h.session hstart hs hcalls) hq).symm
  have hgoesOn {sys : System} {seen : List Sight} (hs : Session answers start calls sys seen) :
      ∃ sys', Follows answers sys seen sys' (transcript registrations answers calls) ∧ sys'.Quiescent := by
    obtain ⟨sys', seen', hf, hq⟩ := h.rests (h.session hstart hs hcalls)
    cases honly (hs.follows hf) hq
    exact ⟨sys', hf, hq⟩
  -- there is such a session: each call is made at the next rest
  have hexists : ∃ sys seen, Session answers start calls sys seen := by
    clear honly hgoesOn
    induction calls using List.reverseRecOn with
    | nil => exact ⟨start, [], .start⟩
    | append_singleton calls call ih =>
        have hbefore : ∀ call ∈ calls, allowed call := fun call hmem => hcalls call (List.mem_append_left _ hmem)
        obtain ⟨sys, seen, hs⟩ := ih hbefore
        have hk := h.session hstart hs hbefore
        obtain ⟨sys', seen', hf, hq⟩ := h.rests hk
        have hk' := h.follows hk hf
        generalize calls.foldl (respond registrations answers) (false, []) = goal at hk'
        obtain ⟨closed, seen₁⟩ := goal
        obtain rfl : seen₁ = seen' := h.arrives hk' hq
        obtain ⟨sys₁, events, hstep, -⟩ := h.call hk' hq (hcalls call (by simp))
        exact ⟨_, _, (hs.follows hf).call hq hstep⟩
  obtain ⟨sys, seen, hs⟩ := hexists
  obtain ⟨sys', hf, hq⟩ := hgoesOn hs
  exact ⟨⟨sys', hs.follows hf, hq⟩, fun _ _ hs => hgoesOn hs, fun _ _ hs hq => honly hs hq⟩

end System

end SingleFlight
