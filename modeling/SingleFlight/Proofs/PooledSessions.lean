import SingleFlight.Proofs.Shutdown

/-!
# Sessions with a pool

With a pool every request of a session is a round: it is served from its start to its rest, and shows the transcript.
-/

namespace SingleFlight

open Scheduler

variable [Payloads]

namespace System

variable {answers : Answers} {sys sys' : System} {act : SchedulerAct} {history : List Moment} {seen : List Sight}
  {events : List SchedulerEvent} {n : Nat} {id : ActionId} {r r' : Registration} {input given : Payload} {x : Prospect}

/-! ## Calls at rest -/

theorem Begins.round (hb : sys.Begins) (hreach : Reachable [] sys) (hpool : sys.scheduler.isSynchronous = false) :
    Round [] sys 0 default default .told := by
  have hnone (n : Nat) (f : Flight) : sys.scheduler.flights[n]? ≠ some f := by simp [hb.flights]
  exact ⟨hb.steady hreach hpool, fun m f hf => absurd hf (hnone m f), fun hx => absurd rfl hx,
    .told (by simp [announced, hb.callsOf]) fun f hf => absurd hf (hnone 0 f)⟩

theorem Steady.request (h : Steady history sys) (hq : sys.Quiescent) (hcopy : ∃ copy, input.copy = .ok copy)
    (hr : sys.scheduler.registration? id = some r) (hacc : r.accepts input = true) :
    ∃ sys', sys.step (.thread (.apply .owner id input)) = some (sys', []) ∧
      Round ({ act := .thread (.apply .owner id input), events := [] } :: history) sys' sys.scheduler.flights.length r input
        .ahead := by
  have hstep := h.accepts hq.calls hr hacc
  have hgentle : sys.scheduler.Gentle (.apply .owner id input) := ⟨rfl, h.none_in_flight hq id, hcopy⟩
  have hroom : sys.scheduler.Roomy := fun p n rest _ hcs => by rw [hq.calls] at hcs; cases hcs
  have hid : r.id = id := h.sane.charted.numbered id.index r hr
  refine ⟨_, hstep, h.step hgentle hroom hstep, fun m f hf hopened => ?_, fun _ => by rw [hid]; exact hr, .requested ?_ rfl⟩
  · exact absurd (h.landed hq hf) hopened
  · rw [announced_setCalls, hid]
    rfl

theorem Steady.close (h : Steady history sys) (hq : sys.Quiescent) :
    ∃ sys', sys.step (.thread (.close .owner)) = some (sys', []) ∧ sys'.Resting := by
  have hfree : sys.scheduler.isFree .owner = true := by simp [isFree, hq.calls]
  obtain ⟨p, hp⟩ := exists_pool h.pooled
  let k : Closing := { flights := sys.scheduler.inFlight.map (·.2), stage := .stopping }
  let shut : Scheduler := { sys.scheduler with isClosed := true, inFlight := [], closing := some k }.push .owner .closing
  have hclose : sys.scheduler.close .owner = (shut, []) := by
    simp only [Scheduler.close, h.isOpen, h.pooled, Bool.false_eq_true, if_false]
    rfl
  have hstep : sys.step (.thread (.close .owner)) = some ({ sys with scheduler := shut }, []) :=
    step_jobless (by simp) (by simp [Scheduler.step, hfree, hclose]) rfl
  have hcalls (c : Caller) : shut.callsOf c = if c = .owner then [.closing] else sys.scheduler.callsOf c := by
    rw [← hq.calls]; exact callsOf_setCalls _ _ _ _
  refine ⟨_, hstep, ⟨h.pooled, rfl, fun n f hf => h.landed hq hf, fun p hp => ⟨hq.queue p hp, hq.workers p hp⟩,
    fun c hc => by rw [hcalls, if_neg hc]; exact h.others c hc,
    .inr ⟨by rw [hcalls, if_pos rfl], k, p, rfl, hp, ?_⟩⟩, hq.jobs⟩
  exact fun hstage => absurd rfl hstage

/-! ## Where a session is heading -/

/-- With a pool, a session serves its last request or is closed. -/
inductive PooledHeading (answers : Answers) (registrations : List Registration) (sys : System) (seen : List Sight) :
    Bool × List Sight → Prop
  | serving {history n r input x goal} : Round history sys n r input x → sys.scheduler.registrations = registrations →
      seen ++ x.rest answers r input seen = goal → PooledHeading answers registrations sys seen (false, goal)
  | closed : sys.Resting → sys.scheduler.registrations = registrations →
      PooledHeading answers registrations sys seen (true, seen)

/-- With a pool, a session shows the transcript of its calls. -/
theorem pooled_foresees (answers : Answers) (registrations : List Registration) :
    Foresees answers registrations HostCall.Copyable (PooledHeading answers registrations) where
  step := by
    intro sys seen goal act sys' events h hobeys hstep
    have hkept := step_registrations hstep
    cases h with
    | serving hround hregs hgoal =>
        obtain ⟨y, hround', hnext⟩ := hround.step hobeys hstep
        exact .serving hround' (hkept.trans hregs) (hnext.rest.trans hgoal)
    | closed hrest hregs =>
        obtain ⟨hrest', hsilent⟩ := hrest.step hobeys hstep
        rw [hsilent, List.append_nil]
        exact .closed hrest' (hkept.trans hregs)
  arrives := by
    intro sys seen goal h hq
    cases h with
    | serving hround _ hgoal =>
        obtain rfl := hround.told hq
        exact hgoal.symm.trans (List.append_nil _)
    | closed => rfl
  rests := by
    intro sys seen goal h
    cases h with
    | serving hround => exact hround.rests answers seen
    | closed hrest => exact hrest.rests answers seen
  call := by
    intro sys seen closed call h hq hcopy
    -- what is turned away leaves the session where it is
    have haway (h : PooledHeading answers registrations sys seen (closed, seen)) (hno : sys.scheduler.isClosed = true ∨
        ∃ id input, call = .apply id input ∧ ∀ r, sys.scheduler.registration? id = some r → r.accepts input = false) :
        ∃ sys' events, sys.step (.thread call.act) = some (sys', events) ∧
          PooledHeading answers registrations sys' (seen ++ sys.scheduler.sights call.act sys'.scheduler events)
            (respond registrations answers (closed, seen) call) := by
      obtain ⟨events, hstep, hrespond⟩ := call_turned_away answers seen hq.calls hno
      refine ⟨sys, events, hstep, ?_⟩
      cases h with
      | serving hround hregs _ =>
          obtain rfl := hround.told hq
          rw [hregs, hround.steady.isOpen] at hrespond
          rw [hrespond]
          exact .serving hround hregs (List.append_nil _)
      | closed hrest hregs =>
          rw [hregs, hrest.shut.isClosed] at hrespond
          rw [hrespond]
          exact .closed hrest hregs
    cases h with
    | closed hrest hregs => exact haway (.closed hrest hregs) (.inl hrest.shut.isClosed)
    | @serving history n r input x goal hround hregs hgoal =>
        cases call with
        | close =>
            obtain ⟨sys', hstep, hrest⟩ := hround.steady.close hq
            refine ⟨sys', [], hstep, ?_⟩
            have hsilent : sys.scheduler.sights HostCall.close.act sys'.scheduler [] = [] := rfl
            rw [hsilent, List.append_nil]
            exact .closed hrest ((step_registrations hstep).trans hregs)
        | apply id given =>
            by_cases hno : ∀ r, sys.scheduler.registration? id = some r → r.accepts given = false
            · exact haway (.serving hround hregs hgoal) (.inr ⟨id, given, rfl, hno⟩)
            · simp only [not_forall, Bool.not_eq_false] at hno
              obtain ⟨r', hr, hacc⟩ := hno
              obtain ⟨sys', hstep, hround'⟩ := hround.steady.request hq hcopy hr hacc
              refine ⟨sys', [], hstep, ?_⟩
              have hsilent : sys.scheduler.sights (HostCall.apply id given).act sys'.scheduler [] = [] := rfl
              have hr' : registrations[id.index]? = some r' := hregs ▸ hr
              have hrespond : respond registrations answers (false, seen) (.apply id given)
                  = (false, seen ++ r'.serves answers seen given) := by
                simp [respond, hr', hacc]
              rw [hsilent, List.append_nil, hrespond]
              exact .serving hround' ((step_registrations hstep).trans hregs) rfl

end System

end SingleFlight
