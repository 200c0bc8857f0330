import SingleFlight.Proofs.History
import SingleFlight.Proofs.Scheduler.Latest
import SingleFlight.Proofs.Sources

/-!
# Which inputs are accepted

With a pool, the owner takes up one request after the other. A request whose action has no flight in the air starts one.
Any other is offered to the flight in the air, which takes the input over unless its newest one compares equal to it.
-/

namespace SingleFlight

open Scheduler

variable [Payloads]

namespace Scheduler

variable {s s' : Scheduler} {act : SchedulerAct} {c : Caller} {n : Nat} {id : ActionId} {f : Flight} {input : Payload}
  {rest : List Call} {events : List SchedulerEvent}

/-! ## Steps of the owner -/

theorem step_launches {r : Registration} (refusal : Option IoError) (hcs : s.callsOf c = .applying id input :: rest)
    (hopen : s.isClosed = false) (hnone : s.flightOf? id = none) (hr : s.registration? id = some r) :
    ∃ s', s.step (.advance c refusal) = some (s', [.queued s.flights.length id r.kind input]) := by
  simp only [Scheduler.step, advance, hcs, advanceCall, lookUp, hopen, hnone, hr, goOn]
  exact ⟨_, rfl⟩

theorem step_finds (refusal : Option IoError) (hcs : s.callsOf c = .applying id input :: rest)
    (hopen : s.isClosed = false) (hn : s.flightOf? id = some n) :
    s.step (.advance c refusal) = some (s.setCalls c (.offering n input :: rest), []) := by
  simp only [Scheduler.step, advance, hcs, advanceCall, lookUp, hopen, hn, goOn]
  rfl

/-- An unequal input is taken over by a flight that is not closed. -/
theorem step_replaces (refusal : Option IoError) (hcs : s.callsOf c = .offering n input :: rest)
    (hf : s.flights[n]? = some f) (hc : f.phase ≠ .closed) (hx : f.input.compare input = .ok false) :
    ∃ s' events, s.step (.advance c refusal) = some (s', events) ∧ input ∈ inputs n events := by
  simp only [Scheduler.step, advance, hcs, advanceCall, offer, hf, Flight.offer, hc, hx, Option.map_some, if_false]
  by_cases hd : f.phase = .completed
  · simp only [hd, if_true]
    exact ⟨_, _, rfl, by simp [inputs, SchedulerEvent.input?]⟩
  · simp only [hd, if_false]
    exact ⟨_, _, rfl, by simp [inputs, SchedulerEvent.input?]⟩

/-- The calls of the owner from which a flight gets its inputs. -/
theorem Move.accepts (hm : Move s act s' events) (hs : s.Sane) (hi : input ∈ inputs n events) :
    (∃ refusal, act = .advance .owner refusal) ∧
      ((∃ id rest, s.callsOf .owner = .applying id input :: rest ∧ s.isClosed = false ∧ s.flightOf? id = none ∧
          n = s.flights.length) ∨
        ∃ f rest, s.callsOf .owner = .offering n input :: rest ∧ s.flights[n]? = some f ∧ f.phase ≠ .closed ∧
          f.input.compare input = .ok false) := by
  obtain ⟨e, he, hin⟩ := List.mem_filterMap.mp hi
  cases e with
  | queued m id kind input' =>
      obtain ⟨rfl, rfl⟩ : m = n ∧ input' = input := by simpa [SchedulerEvent.input?] using hin
      cases hm.news he rfl with
      | @queued c refusal _ _ r rest hcs hopen hnone =>
          obtain rfl := hs.regular.orderly.owner hs.pooled hcs (by simp [Call.suits])
          exact ⟨⟨refusal, rfl⟩, .inl ⟨id, rest, hcs, hopen, hnone, rfl⟩⟩
  | superseded m id input' generation =>
      obtain ⟨rfl, rfl⟩ : m = n ∧ input' = input := by simpa [SchedulerEvent.input?] using hin
      cases hm.news he rfl with
      | @superseded c refusal _ _ f rest hcs hf hc hx =>
          obtain rfl := hs.regular.orderly.owner hs.pooled hcs (by simp [Call.suits])
          exact ⟨⟨refusal, rfl⟩, .inr ⟨f, rest, hcs, hf, hc, hx⟩⟩
  | rearmed m id input' generation =>
      obtain ⟨rfl, rfl⟩ : m = n ∧ input' = input := by simpa [SchedulerEvent.input?] using hin
      cases hm.news he rfl with
      | @rearmed c refusal _ _ f rest hcs hf hd hx =>
          obtain rfl := hs.regular.orderly.owner hs.pooled hcs (by simp [Call.suits])
          exact ⟨⟨refusal, rfl⟩, .inr ⟨f, rest, hcs, hf, by simp [hd], hx⟩⟩
  | _ => cases hin

end Scheduler

namespace System

variable {sys sys' : System} {act : SystemAct} {history : List Moment} {c : Caller} {n : Nat} {id : ActionId}
  {f : Flight} {input : Payload} {refusal : Option IoError} {rest : List Call} {events : List SchedulerEvent}

/-! ## In a history -/

/-- The next step of the owner makes the input the newest one of the flight. Either the owner takes up a request, all
flights of its action were delivered, and the flight is the next one; or it offers the input to the flight, whose newest
input compares unequal to it. Only once the scheduler is closed, a flight may be closed before it gets its offer. -/
inductive Accepts (sys : System) (history : List Moment) (n : Nat) (input : Payload) : Prop
  | starting {id : ActionId} {rest : List Call} : sys.scheduler.callsOf .owner = .applying id input :: rest →
      sys.scheduler.isClosed = false → (∀ m, WasStarted m id history → deliveryCount m history = 1) →
      n = sys.scheduler.flights.length → Accepts sys history n input
  | replacing {pending : Payload} {rest : List Call} : sys.scheduler.callsOf .owner = .offering n input :: rest →
      newest n history = some pending → pending.compare input = .ok false →
      (sys.scheduler.isClosed = true → ∀ f, sys.scheduler.flights[n]? = some f → f.phase ≠ .closed) →
      Accepts sys history n input

theorem Reachable.foremost (h : Reachable history sys) (hpool : sys.scheduler.isSynchronous = false) :
    sys.scheduler.Foremost := by
  refine h.sane_invariant (P := fun _ sys => sys.scheduler.Foremost) (fun sys hb => ?_) (fun _ hs ih hstep => ?_) hpool
  · exact ⟨by simp [hb.inFlight], by simp [hb.callsOf], by simp [hb.callsOf]⟩
  · exact step_scheduler hstep ih fun hm => ih.move hm hs

/-- Every flight was started for its action. -/
theorem Reachable.was_started (h : Reachable history sys) (hpool : sys.scheduler.isSynchronous = false) :
    ∀ (n : Nat) (f : Flight), sys.scheduler.flights[n]? = some f → WasStarted n f.action history := by
  refine h.sane_invariant (P := fun history sys => ∀ (n : Nat) (f : Flight), sys.scheduler.flights[n]? = some f →
    WasStarted n f.action history) ?_ ?_ hpool
  · intro sys hb n f hf; simp [hb.flights] at hf
  · intro history sys act sys' events _ hsane ih hs n g hg
    have hlater {id : ActionId} : WasStarted n id history → WasStarted n id ({ act, events } :: history) :=
      fun ⟨moment, hm, hq⟩ => ⟨moment, List.mem_cons_of_mem _ hm, hq⟩
    rcases step_cases hs with ⟨rfl, rfl, rfl⟩ | ⟨a, loop, rfl, -, hm, -⟩
    · exact hlater (ih n g hg)
    · cases hf : sys.scheduler.flights[n]? with
      | some f =>
          obtain ⟨g', hg', hp⟩ := hm.persists hf
          cases hg.symm.trans hg'
          exact hlater (hp.action ▸ ih n f hf)
      | none => exact ⟨_, List.mem_cons_self, hm.launches hsane hf hg⟩

/-- An action has a flight in the air as long as one of its flights still has to be delivered. -/
theorem Reachable.flightOf?_eq_none_iff (h : Reachable history sys) (hpool : sys.scheduler.isSynchronous = false)
    (hopen : sys.scheduler.isClosed = false) :
    sys.scheduler.flightOf? id = none ↔ ∀ n, WasStarted n id history → deliveryCount n history = 1 := by
  have hs := h.sane hpool
  have hdel := h.delivering hpool
  constructor
  · intro hnone n hn
    obtain ⟨f, hf, rfl⟩ := hdel.started n id hn
    refine hdel.landed hopen n ?_
    by_cases hc : f.phase = .closed
    · simp [standing, hf, hc]
    · exact absurd (hs.charted.complete hopen n f hf hc) (not_mem_of_flightOf? hnone)
  · intro hall
    cases hn : sys.scheduler.flightOf? id with
    | none => rfl
    | some n =>
        obtain ⟨f, -, hf, rfl, hne, -⟩ := hs.charted.charted id n (mem_of_flightOf? hn)
        have hone := hall n (h.was_started hpool n f hf)
        have hzero := hdel.pending n (by simp [standing, hf, hne])
        omega

theorem Reachable.known (h : Reachable history sys) (hpool : sys.scheduler.isSynchronous = false)
    (hcs : sys.scheduler.callsOf c = .applying id input :: rest) : ∃ r, sys.scheduler.registration? id = some r := by
  have hasked : sys.scheduler.Fed fun id _ => ∃ r, sys.scheduler.registration? id = some r :=
    (h.fed hpool fun _ _ _ _ _ r _ hr _ => ⟨r, hr⟩).1
  exact hasked.calls c (.applying id input) (hcs ▸ List.mem_cons_self)

/-- As long as the scheduler is open, what is offered an input is in the air. -/
theorem Reachable.phase_offered (h : Reachable history sys) (hpool : sys.scheduler.isSynchronous = false)
    (hopen : sys.scheduler.isClosed = false) (hcs : sys.scheduler.callsOf .owner = .offering n input :: rest)
    (hf : sys.scheduler.flights[n]? = some f) : f.phase ≠ .closed := by
  obtain ⟨g, hg, hin⟩ := (h.foremost hpool).offered hopen n input (hcs ▸ List.mem_cons_self)
  obtain ⟨g', -, hg', -, hne, -⟩ := (h.sane hpool).charted.charted _ n hin
  cases hf.symm.trans hg'
  exact hne

theorem Reachable.accepts_iff (h : Reachable history sys) (hpool : sys.scheduler.isSynchronous = false)
    (hs : sys.step act = some (sys', events)) :
    input ∈ inputs n events ↔ (∃ refusal, act = .thread (.advance .owner refusal)) ∧ sys.Accepts history n input := by
  constructor
  · intro he
    rcases step_cases hs with ⟨-, -, rfl⟩ | ⟨a, loop, rfl, -, hm, -⟩
    · cases he
    · obtain ⟨⟨refusal, rfl⟩, hcall⟩ := hm.accepts (h.sane hpool) he
      refine ⟨⟨refusal, rfl⟩, ?_⟩
      rcases hcall with ⟨id, rest, hcs, hopen, hnone, hn⟩ | ⟨f, rest, hcs, hf, hc, hx⟩
      · exact .starting hcs hopen ((h.flightOf?_eq_none_iff hpool hopen).mp hnone) hn
      · refine .replacing hcs (by rw [h.newest_eq hpool, hf]; rfl) hx fun _ g hg => ?_
        cases hf.symm.trans hg
        exact hc
  · rintro ⟨⟨refusal, rfl⟩, haccepts⟩
    obtain ⟨-, -, hs, -⟩ := step_yields hs
    cases haccepts with
    | @starting id rest hcs hopen hall hn =>
        obtain ⟨r, hr⟩ := h.known hpool hcs
        have hnone := (h.flightOf?_eq_none_iff hpool hopen).mpr hall
        obtain ⟨s', hlaunch⟩ := step_launches refusal hcs hopen hnone hr
        cases hs.symm.trans hlaunch
        simp [inputs, SchedulerEvent.input?, hn]
    | @replacing pending rest hcs hnew hx hclosed =>
        rw [h.newest_eq hpool] at hnew
        obtain ⟨f, hf, rfl⟩ := Option.map_eq_some_iff.mp hnew
        have hc : f.phase ≠ .closed := by
          cases hopen : sys.scheduler.isClosed with
          | true => exact hclosed hopen f hf
          | false => exact h.phase_offered hpool hopen hcs hf
        obtain ⟨s', events', hreplace, hmem⟩ := step_replaces refusal hcs hf hc hx
        cases hs.symm.trans hreplace
        exact hmem

/-- A request whose action has a flight that still has to be delivered is offered to this flight. -/
theorem Reachable.offers (h : Reachable history sys) (hpool : sys.scheduler.isSynchronous = false)
    (hopen : sys.scheduler.isClosed = false) (hcs : sys.scheduler.callsOf .owner = .applying id input :: rest)
    (hn : WasStarted n id history) (hd : deliveryCount n history = 0)
    (hs : sys.step (.thread (.advance .owner refusal)) = some (sys', events)) :
    sys'.scheduler.callsOf .owner = .offering n input :: rest := by
  obtain ⟨f, hf, rfl⟩ := (h.delivering hpool).started n id hn
  have hc : f.phase ≠ .closed := by
    intro hc
    have := (h.delivering hpool).landed hopen n (by simp [standing, hf, hc])
    omega
  have hcharted := (h.sane hpool).charted
  obtain ⟨-, -, hs, -⟩ := step_yields hs
  have hfind := step_finds refusal hcs hopen (hcharted.flightOf? (hcharted.complete hopen n f hf hc))
  have hnext : sys'.scheduler = _ := congrArg Prod.fst (Option.some.inj (hs.symm.trans hfind))
  rw [hnext]
  exact callsOf_setCalls_self _ _ _

end System

end SingleFlight
