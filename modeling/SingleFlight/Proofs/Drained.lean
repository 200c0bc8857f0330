import SingleFlight.Proofs.Closing
import SingleFlight.Proofs.Scheduler.Draining

/-!
# Nothing is left after closing

When the call that closed a scheduler with a pool has returned, no flight is in the air, all flights are closed for
good, and later requests change nothing.
-/

namespace SingleFlight

open Scheduler

section

variable [Payloads]

namespace Scheduler

variable {s : Scheduler} {c : Caller}

/-- Nothing but the order in which the calls are listed differs. -/
structure Same (s s' : Scheduler) : Prop where
  rest : { s' with calls := s.calls } = s
  calls : ∀ c, s'.callsOf c = s.callsOf c

theorem Same.turned {cs : List Call} (c : Caller) (x : Call) (h : s.callsOf c = cs) :
    s.Same ((s.setCalls c (x :: cs)).setCalls c cs) := by
  refine ⟨rfl, fun d => ?_⟩
  rw [callsOf_setCalls, callsOf_setCalls]
  by_cases hd : d = c
  · simp [hd, h]
  · simp [hd]

theorem apply_late {id : ActionId} {input : Payload} {r : Registration} (hclosed : s.isClosed = true)
    (hfree : s.isFree c = true) (hr : s.registration? id = some r) (ha : r.accepts input = true) :
    s.step (.apply c id input) = some (s, [.dropped id .schedulerClosed, .returned c]) := by
  simp [Scheduler.step, hfree, Scheduler.apply, hr, ha, hclosed]

/-- A request that was posted before comes to nothing when the owner takes it up. -/
theorem request_late (hclosed : s.isClosed = true) (hpool : s.isSynchronous = false)
    (hfree : s.isFree .owner = true) (id : ActionId) (input : Payload) (refusal : Option IoError) :
    ∃ mid s', s.step (.run (.request id input)) = some (mid, []) ∧
      mid.step (.advance .owner refusal) = some (s', [.dropped id .schedulerClosed, .returned .owner]) ∧
      s.Same s' := by
  refine ⟨s.push .owner (.applying id input), _, ?_, ?_, Same.turned .owner (.applying id input) rfl⟩
  · simp [Scheduler.step, hfree, hpool, Scheduler.run]
  · have hcs : (s.push .owner (.applying id input)).callsOf .owner = .applying id input :: s.callsOf .owner :=
      callsOf_setCalls_self ..
    have hc : (s.push .owner (.applying id input)).isClosed = true := hclosed
    simp only [Scheduler.step, Scheduler.advance, hcs, Scheduler.advanceCall, Scheduler.lookUp, hc, Scheduler.finish,
      ↓reduceIte, List.cons_append, List.nil_append]
    rfl

end Scheduler

namespace System

variable {sys sys' : System} {act : SystemAct} {history later : List Moment} {events : List SchedulerEvent}

/-- The call that closed the scheduler has returned. -/
def Drained (history : List Moment) : Prop := ∃ moment ∈ history, ∃ flights, .closed flights ∈ moment.events

theorem Begins.draining (h : sys.Begins) : sys.scheduler.Draining := by
  refine ⟨fun n f hf => ?_, fun hc => ?_⟩
  · simp [h.flights] at hf
  · rw [h.isClosed] at hc; cases hc

theorem Reachable.draining (h : Reachable history sys) (hpool : sys.scheduler.isSynchronous = false) :
    sys.scheduler.Draining :=
  h.sane_invariant (P := fun _ sys => sys.scheduler.Draining) (fun _ hb => hb.draining)
    (fun _ hsane ih hs => step_scheduler hs ih fun hm => hm.draining hsane ih) hpool

theorem Reachable.at_rest (h : Reachable history sys) (hpool : sys.scheduler.isSynchronous = false)
    (hdrained : Drained history) : sys.scheduler.AtRest := by
  refine h.sane_invariant (P := fun history sys => Drained history → sys.scheduler.AtRest)
    (fun _ _ ⟨_, hm, _⟩ => by cases hm) ?_ hpool hdrained
  intro history sys act sys' events hreach hsane ih hs ⟨moment, hm, flights, he⟩
  rcases List.mem_cons.mp hm with rfl | hm
  · rcases step_cases hs with ⟨-, -, rfl⟩ | ⟨a, loop, -, -, hmove, -⟩
    · cases he
    · have hrest := hmove.comes_to_rest hsane (hreach.draining hsane.pooled) he
      exact hrest.move hmove hsane
  · have hrest := ih ⟨moment, hm, flights, he⟩
    exact step_scheduler hs hrest fun hmove => hrest.move hmove hsane

theorem Drained.run (h : Drained history) : Drained (later ++ history) := by
  obtain ⟨moment, hm, hclosed⟩ := h
  exact ⟨moment, List.mem_append_right _ hm, hclosed⟩

theorem Run.synchronous (h : Run sys later sys') : sys'.scheduler.isSynchronous = sys.scheduler.isSynchronous := by
  induction h with
  | start => rfl
  | step _ hs ih => exact (step_synchronous hs).trans ih

/-- Nothing stirs any more, and all flights stay as they are. -/
theorem Run.still (hrun : Run sys later sys') (h : Reachable history sys) (hpool : sys.scheduler.isSynchronous = false)
    (hdrained : Drained history) :
    sys'.scheduler.flights.map Flight.remains = sys.scheduler.flights.map Flight.remains ∧
      ∀ moment ∈ later, ∀ e ∈ moment.events, e.stirs = false := by
  induction hrun with
  | start => exact ⟨rfl, fun _ hm => by cases hm⟩
  | @step later mid act sys' events hrun hs ih =>
      obtain ⟨hremains, hstill⟩ := ih
      have hmid := h.run hrun
      have hsane := hmid.sane (hrun.synchronous.trans hpool)
      have hrest := hmid.at_rest hsane.pooled hdrained.run
      rcases step_cases hs with ⟨-, rfl, rfl⟩ | ⟨a, loop, -, -, hm, -⟩
      · refine ⟨hremains, fun moment hmem => ?_⟩
        rcases List.mem_cons.mp hmem with rfl | hmem
        · intro e he; cases he
        · exact hstill moment hmem
      · refine ⟨(hrest.remains hm hsane).trans hremains, fun moment hmem => ?_⟩
        rcases List.mem_cons.mp hmem with rfl | hmem
        · exact fun e he => hrest.still hm he
        · exact hstill moment hmem

theorem step_unposted {a : SchedulerAct} {s : Scheduler} {loop : OwnerLoop Posted} (hy : sys.loop.yield a = some loop)
    (hs : sys.scheduler.step a = some (s, events)) (hjobs : events.filterMap SchedulerEvent.job? = []) :
    sys.step (.thread a) = some ({ scheduler := s, loop }, events) := by
  rw [step_yielded hy hs, hjobs]
  rfl

theorem backup_of_empty {s : Scheduler} (h : s.inFlight = []) : s.backup .owner = .ok .empty := by
  simp [Scheduler.backup, Scheduler.mayLook, Scheduler.pending, h, Snapshot.ofList, Snapshot.copy, Snapshot.empty,
    Snapshot.copyEntries]
  rfl

/-- From the return of the call that closed a scheduler with a pool on, no flight is in the air and every flight is
closed without an outcome, a backup is empty, and nothing stirs: no flight gets an input, no function is called,
called again or its outcome stored, since whoever is about to do so finds the flight closed. Requests, made now or
posted before, are dropped and change nothing. -/
theorem drained_for_good (h : Reachable history sys) (hpool : sys.scheduler.isSynchronous = false)
    (hdrained : Drained history) (hrun : Run sys later sys') :
    (sys'.scheduler.inFlight = [] ∧ sys'.scheduler.backup .owner = .ok .empty ∧
      ∀ (n : Nat) (f : Flight), sys'.scheduler.flights[n]? = some f → f.phase = .closed ∧ f.output = none) ∧
    (sys'.scheduler.flights.map Flight.remains = sys.scheduler.flights.map Flight.remains ∧
      ∀ moment ∈ later, ∀ e ∈ moment.events, e.stirs = false) ∧
    (∀ (n : Nat) (f : Flight), sys'.scheduler.flights[n]? = some f → ∀ c,
      sys'.scheduler.runStep c n .starting = some (sys'.scheduler, .returned, []) ∧
      ∀ token outcome, sys'.scheduler.runStep c n (.settling token outcome) = some (sys'.scheduler, .returned, [])) ∧
    (∀ c id input r, sys'.scheduler.isFree c = true → sys'.scheduler.registration? id = some r →
      r.accepts input = true →
      sys'.step (.thread (.apply c id input)) = some (sys', [.dropped id .schedulerClosed, .returned c])) ∧
    (∀ id input loop, sys'.scheduler.isFree .owner = true → sys'.loop.take? = some (.request id input, loop) →
      ∀ refusal, ∃ mid last, sys'.step (.thread (.run (.request id input))) = some (mid, []) ∧
        mid.step (.thread (.advance .owner refusal)) = some (last, [.dropped id .schedulerClosed, .returned .owner]) ∧
        last.loop = loop ∧ sys'.scheduler.Same last.scheduler) := by
  have hreach := h.run hrun
  have hpool' := hrun.synchronous.trans hpool
  have hrest := hreach.at_rest hpool' hdrained.run
  have hempty := (hreach.sane hpool').charted.emptied hrest.isClosed
  refine ⟨⟨hempty, backup_of_empty hempty, hrest.flights⟩, hrun.still h hpool hdrained,
    fun n f hf c => hrest.runStep hf c, fun c id input r hfree hr ha => ?_, fun id input loop hfree htake refusal => ?_⟩
  · exact step_unposted rfl (apply_late hrest.isClosed hfree hr ha) rfl
  · obtain ⟨s₁, s₂, hstep₁, hstep₂, hsame⟩ := request_late hrest.isClosed hpool' hfree id input refusal
    have hyield : sys'.loop.yield (.run (.request id input)) = some loop := by simp [OwnerLoop.yield, htake]
    exact ⟨{ scheduler := s₁, loop }, { scheduler := s₂, loop }, step_unposted hyield hstep₁ rfl,
      step_unposted rfl hstep₂ rfl, rfl, hsame⟩

end System

end

namespace System

/-- A worker comes back from its function after the scheduler was closed without waiting for it, and a request of
another thread is still in the loop. -/
theorem drained_during_invocation : ∃ history sys later sys', Reachable history sys ∧
    sys.scheduler.isSynchronous = false ∧ Drained history ∧ sys.scheduler.isInvoking 1 = true ∧
    sys.loop.queue = [.request ⟨0⟩ (.string "b")] ∧ Run sys later sys' ∧ sys'.scheduler.isInvoking 1 = false ∧
    (∀ moment ∈ later, ∀ e ∈ moment.events, e.stirs = false) ∧
    sys'.scheduler.flights.map Flight.phase = [.closed] ∧ sys'.scheduler.backup .owner = .ok .empty := by
  let closing : List SystemAct :=
    [ .thread (.apply .owner ⟨0⟩ (.string "a")), .thread (.advance .owner none), .thread (.advance .owner none),
      .thread (.advance (.worker 1) none), .thread (.advance (.worker 1) none), .thread (.advance (.worker 1) none),
      .thread (.advance (.worker 1) none),
      .thread (.apply (.other 1) ⟨0⟩ (.string "b")), .thread (.advance (.other 1) none),
      .thread (.close (.other 0)), .thread (.advance (.other 0) none), .thread (.advance (.other 0) none),
      .thread (.advance (.other 0) none), .thread (.advance (.other 0) none), .thread (.abandon (.other 0)),
      .thread (.advance (.other 0) none), .thread (.advance (.other 0) none), .thread (.advance (.other 0) none),
      .thread (.advance (.other 0) none) ]
  let returning : SystemAct := .thread (.reply (.worker 1) (.value (some (.string "x"))))
  let settling : SystemAct := .thread (.advance (.worker 1) none)
  obtain ⟨moment, history, sys, mid, sys', events, events', hr, hclosed, hpool, hin, hqueue, hs₁, hs₂, hout, hphases⟩ :
      ∃ moment history sys mid sys' events events',
      replay closing [] (small true) = some (moment :: history, sys) ∧ .closed 1 ∈ moment.events ∧
      sys.scheduler.isSynchronous = false ∧ sys.scheduler.isInvoking 1 = true ∧
      sys.loop.queue = [.request ⟨0⟩ (.string "b")] ∧ sys.step returning = some (mid, events) ∧
      mid.step settling = some (sys', events') ∧ sys'.scheduler.isInvoking 1 = false ∧
      sys'.scheduler.flights.map Flight.phase = [.closed] :=
    ⟨_, _, _, _, _, _, _, rfl, List.mem_cons_self, rfl, rfl, rfl, rfl, rfl, rfl, rfl⟩
  have hreach := replay_reachable (small_reachable true) hr
  have hdrained : Drained (moment :: history) := ⟨moment, List.mem_cons_self, 1, hclosed⟩
  have hrun := (Run.start.step hs₁).step hs₂
  obtain ⟨⟨-, hbackup, -⟩, ⟨-, hstill⟩, -⟩ := drained_for_good hreach hpool hdrained hrun
  exact ⟨_, sys, _, sys', hreach, hpool, hdrained, hin, hqueue, hrun, hout, hstill, hphases, hbackup⟩

end System

end SingleFlight
