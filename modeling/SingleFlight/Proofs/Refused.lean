import SingleFlight.Proofs.Drained
import SingleFlight.Proofs.Scheduler.Refusals

/-!
# After a refused request

A request whose flight the pool refuses ends with a panic, but its flight stays in the air. While the scheduler is
open, the action of such a flight is not served any more, whatever is requested: the flight waits for a worker that
nobody asked for, and later requests are folded into it.
-/

namespace SingleFlight

open Scheduler

namespace System

section

variable [Payloads] {sys sys' sys₀ sys₁ sys₂ sys₃ : System} {act act₀ : SystemAct} {history between later : List Moment}
  {events events₀ : List SchedulerEvent} {id : ActionId} {n : Nat} {f : Flight} {error : PoolError}

/-- The events put a flight of the action into the air or queue it again. -/
def PutsUp (n : Nat) (id : ActionId) (events : List SchedulerEvent) : Prop :=
  (∃ kind input, .queued n id kind input ∈ events) ∨ ∃ input generation, .rearmed n id input generation ∈ events

theorem Run.persists (h : Run sys later sys') (hf : sys.scheduler.flights[n]? = some f) :
    ∃ g, sys'.scheduler.flights[n]? = some g ∧ Persists f g := by
  induction h with
  | start => exact ⟨f, hf, .refl f⟩
  | step _ hs ih =>
      obtain ⟨g, hg, hp⟩ := ih
      rcases step_cases hs with ⟨-, rfl, -⟩ | ⟨a, loop, -, -, hm, -⟩
      · exact ⟨g, hg, hp⟩
      · obtain ⟨k, hk, hp'⟩ := hm.persists hg
        exact ⟨k, hk, hp'.action.trans hp.action, hp'.kind.trans hp.kind, fun hc => hp'.closed (hp.closed hc)⟩

theorem PutsUp.before (hput : PutsUp n id events) (h : Reachable history sys)
    (hpool : sys.scheduler.isSynchronous = false) (hs : sys.step act = some (sys', events)) :
    (∃ f, sys'.scheduler.flights[n]? = some f ∧ f.action = id) ∧
      (sys.scheduler.flightOf? id = none ∧ sys.scheduler.flights[n]? = none ∨
        ∃ f, sys.scheduler.flights[n]? = some f ∧ f.phase = .completed ∧ f.output.isSome = true) := by
  have hsane := h.sane hpool
  rcases step_cases hs with ⟨-, -, rfl⟩ | ⟨a, loop, -, -, hm, -⟩
  · rcases hput with ⟨_, _, he⟩ | ⟨_, _, he⟩ <;> cases he
  · rcases hput with ⟨kind, input, he⟩ | ⟨input, generation, he⟩
    · refine ⟨hm.queued hsane he, .inl ?_⟩
      cases hm.news he rfl with
      | queued _ _ hnone => exact ⟨hnone, List.getElem?_eq_none (Nat.le_refl _)⟩
    · cases hm.news he rfl with
      | rearmed _ hf hd =>
          obtain ⟨g, hg, hp⟩ := hm.persists hf
          exact ⟨⟨g, hg, hp.action⟩, .inr ⟨_, hf, hd, hsane.settled n _ hf hd⟩⟩

/-- As long as the scheduler is open, an orphan stays one, and its action is not served. -/
theorem Run.orphaned (hrun : Run sys later sys') (h : Reachable history sys)
    (hpool : sys.scheduler.isSynchronous = false) (ho : sys.scheduler.Orphaned n)
    (hf : sys.scheduler.flights[n]? = some f) (hopen : sys'.scheduler.isClosed = false) :
    sys'.scheduler.Orphaned n ∧ ∀ moment ∈ later, ∀ e ∈ moment.events, e.serves f.action = false := by
  induction hrun with
  | start => exact ⟨ho, fun _ hm => by cases hm⟩
  | @step later mid act sys' events hrun hs ih =>
      have hsane := (h.run hrun).sane (hrun.synchronous.trans hpool)
      rcases step_cases hs with ⟨-, rfl, rfl⟩ | ⟨a, loop, -, -, hm, -⟩
      · obtain ⟨ho, hnone⟩ := ih hopen
        refine ⟨ho, fun moment hmem => ?_⟩
        rcases List.mem_cons.mp hmem with rfl | hmem
        · intro e he; cases he
        · exact hnone moment hmem
      · have hopen' := hm.keeps.opened hopen
        obtain ⟨ho, hnone⟩ := ih hopen'
        refine ⟨hm.orphaned hsane ho hopen, fun moment hmem => ?_⟩
        rcases List.mem_cons.mp hmem with rfl | hmem
        · obtain ⟨g, hg, hp⟩ := hrun.persists hf
          intro e he
          rw [← hp.action]
          exact ho.blocks hsane hg hopen' hm he
        · exact hnone moment hmem

/-- If the pool refuses a flight that a request put into the air or queued again, the request panics and the flight
stays in the air: it was not there before, or it had an outcome, which is lost. Then the flight waits in the queue of
a pool without workers, or as long as the scheduler is open the flight stays as it is and no request brings its action
to another flight, to an invocation or to a delivery. -/
theorem refused_flight_stays (h : Reachable history sys₀) (hpool : sys₀.scheduler.isSynchronous = false)
    (hstart : sys₀.step act₀ = some (sys₁, events₀)) (hput : PutsUp n id events₀) (hbetween : Run sys₁ between sys₂)
    (hs : sys₂.step act = some (sys₃, events)) (he : .pool (.refused n error) ∈ events) (hne : error ≠ .stopped)
    (hopen : sys₃.scheduler.isClosed = false) :
    (sys₀.scheduler.flightOf? id = none ∧ sys₀.scheduler.flights[n]? = none ∨
      ∃ f, sys₀.scheduler.flights[n]? = some f ∧ f.phase = .completed ∧ f.output.isSome = true) ∧
    (∃ p, sys₂.scheduler.pool = some p ∧
      events = [.pool (.refused n error), .panicked .owner (submissionFault p.name id error)]) ∧
    ((id, n) ∈ sys₃.scheduler.inFlight ∧ ∃ f, sys₃.scheduler.flights[n]? = some f ∧ f.phase = .queued) ∧
    ((∃ q, sys₃.scheduler.pool = some q ∧ n ∈ q.queue ∧ q.live = 0) ∨
      ∀ later sys₄, Run sys₃ later sys₄ → sys₄.scheduler.isClosed = false →
        (id, n) ∈ sys₄.scheduler.inFlight ∧ ∀ moment ∈ later, ∀ e ∈ moment.events, e.serves id = false) := by
  have h₁ := h.step hstart
  have hpool₁ := (step_synchronous hstart).trans hpool
  have h₂ := h₁.run hbetween
  have hpool₂ := hbetween.synchronous.trans hpool₁
  have h₃ := h₂.step hs
  have hpool₃ := (step_synchronous hs).trans hpool₂
  obtain ⟨⟨f₁, hf₁, ha₁⟩, hbefore⟩ := hput.before h hpool hstart
  rcases step_cases hs with ⟨-, -, rfl⟩ | ⟨a, loop, -, -, hm, -⟩
  · cases he
  · obtain ⟨f, p, hf, hp, hq, hin, rfl, hin₃, hflights, hstays⟩ :=
      hm.refused_stays (h₂.sane hpool₂) (hm.keeps.opened hopen) he hne
    obtain ⟨f', hf', hpers⟩ := hbetween.persists hf₁
    cases hf.symm.trans hf'
    obtain rfl : f.action = id := hpers.action.trans ha₁
    have hf₃ : sys₃.scheduler.flights[n]? = some f := hflights ▸ hf
    refine ⟨hbefore, ⟨p, hp, rfl⟩, ⟨hin₃ ▸ hin, f, hf₃, hq⟩, ?_⟩
    rcases hstays with ho | hqueue
    · refine .inr fun later sys₄ hrun hopen₄ => ?_
      obtain ⟨ho₄, hnone⟩ := hrun.orphaned h₃ hpool₃ ho hf₃ hopen₄
      obtain ⟨f₄, hf₄, hpers₄⟩ := hrun.persists hf₃
      have hsane₄ := (h₃.run hrun).sane (hrun.synchronous.trans hpool₃)
      exact ⟨hpers₄.action ▸ hsane₄.busy_inFlight hopen₄ hf₄ ho₄.busy, hnone⟩
    · exact .inl hqueue

end

/-- The first request is refused, and afterwards nothing serves its action. -/
theorem first_flight_orphaned : ∃ sys₀ sys₁ sys₂ events, (small true).step (.thread (.apply .owner ⟨0⟩ (.string "a")))
      = some (sys₀, []) ∧
    sys₀.step (.thread (.advance .owner none)) = some (sys₁, [.queued 0 ⟨0⟩ .get (.string "a")]) ∧
    sys₁.step (.thread (.advance .owner (some (.simple .other)))) = some (sys₂, events) ∧
    .pool (.refused 0 (.spawn (.simple .other))) ∈ events ∧ sys₂.scheduler.isClosed = false ∧
    ∀ later sys', Run sys₂ later sys' → sys'.scheduler.isClosed = false →
      (⟨0⟩, 0) ∈ sys'.scheduler.inFlight ∧ ∀ moment ∈ later, ∀ e ∈ moment.events, e.serves ⟨0⟩ = false := by
  obtain ⟨sys₀, sys₁, sys₂, events, hpool, hs₀, hs₁, hs₂, he, hopen, hqueue⟩ : ∃ sys₀ sys₁ sys₂ events,
      sys₀.scheduler.isSynchronous = false ∧
      (small true).step (.thread (.apply .owner ⟨0⟩ (.string "a"))) = some (sys₀, []) ∧
      sys₀.step (.thread (.advance .owner none)) = some (sys₁, [.queued 0 ⟨0⟩ .get (.string "a")]) ∧
      sys₁.step (.thread (.advance .owner (some (.simple .other)))) = some (sys₂, events) ∧
      .pool (.refused 0 (.spawn (.simple .other))) ∈ events ∧ sys₂.scheduler.isClosed = false ∧
      sys₂.scheduler.pool.map Pool.queue = some [] :=
    ⟨_, _, _, _, rfl, rfl, rfl, rfl, List.mem_cons_self, rfl, rfl⟩
  have hreach := (small_reachable true).step hs₀
  have hput : PutsUp 0 ⟨0⟩ [.queued 0 ⟨0⟩ .get (.string "a")] := .inl ⟨_, _, List.mem_cons_self⟩
  obtain ⟨-, -, -, hstays⟩ := refused_flight_stays hreach hpool hs₁ hput .start hs₂ he (by simp) hopen
  refine ⟨sys₀, sys₁, sys₂, events, hs₀, hs₁, hs₂, he, hopen, ?_⟩
  rcases hstays with ⟨q, hq, hn, -⟩ | hstays
  · rw [hq] at hqueue
    have : q.queue = [] := by simpa using hqueue
    rw [this] at hn; cases hn
  · exact hstays

/-- Before the refused request no flight is in the air, afterwards its flight is; and when threads can be created
again, the same request is ignored, and the pool gets nothing to do. -/
theorem request_ignored_after_refusal : ∃ history sys history' sys',
    (small true).scheduler.inFlight = [] ∧
    replay [.thread (.apply .owner ⟨0⟩ (.string "a")), .thread (.advance .owner none),
        .thread (.advance .owner (some (.simple .other)))] [] (small true)
      = some ({ act := .thread (.advance .owner (some (.simple .other))),
                events := [ .pool (.refused 0 (.spawn (.simple .other))),
                  .panicked .owner "courier-small cannot run action#0: Failed to spawn worker thread: other error" ] }
          :: history, sys) ∧
    sys.scheduler.isClosed = false ∧ sys.scheduler.inFlight = [(⟨0⟩, 0)] ∧
    replay [.thread (.apply .owner ⟨0⟩ (.string "a")), .thread (.advance .owner none), .thread (.advance .owner none)]
        [] sys
      = some ({ act := .thread (.advance .owner none), events := [.coalesced 0 ⟨0⟩, .returned .owner] } :: history',
        sys') ∧
    sys'.scheduler.isFree .owner = true ∧ sys'.scheduler.pool.map Pool.queue = some [] ∧
    sys'.scheduler.workerCount = 0 :=
  ⟨_, _, _, _, rfl, rfl, rfl, rfl, rfl, rfl, rfl, rfl⟩

end System

end SingleFlight
