import SingleFlight.Proofs.Scheduler.Changes
import SingleFlight.Proofs.Scheduler.Course
import SingleFlight.Proofs.Scheduler.News

/-!
# Draining a scheduler

The call that closes a scheduler takes the flights out of the air at once and closes them one by one. Until it has
come to its end, every flight that is not closed is on its list; after that all flights are at rest.
-/

namespace SingleFlight

variable [Payloads]

/-- The flights that are still to be closed. -/
def Closing.left (k : Closing) : List Nat :=
  match k.stage with
  | .dropping rest => rest
  | _ => k.flights

/-- The event tells that a flight gets an input, that its function is called or has ended with it, or that its
outcome is taken. -/
def SchedulerEvent.stirs : SchedulerEvent → Bool
  | .queued _ _ _ _ => true
  | .superseded _ _ _ _ => true
  | .rearmed _ _ _ _ => true
  | .called _ _ _ _ _ => true
  | .retried _ _ _ _ => true
  | .completed _ _ _ _ => true
  | .delivered _ _ _ => true
  | _ => false

namespace Scheduler

variable {s s' u : Scheduler} {act : SchedulerAct} {c : Caller} {n : Nat} {f g : Flight} {e : SchedulerEvent}
  {events : List SchedulerEvent}

/-! ## On the way -/

/-- Closed flights hold no outcome, and once the scheduler is closed all others are still to be closed. -/
structure Draining (s : Scheduler) : Prop where
  bare : ∀ (n : Nat) (f : Flight), s.flights[n]? = some f → f.phase = .closed → f.output = none
  left : s.isClosed = true → ∃ k, s.closing = some k ∧
    ∀ (n : Nat) (f : Flight), s.flights[n]? = some f → f.phase ≠ .closed → n ∈ k.left

theorem Move.bare (hm : Move s act s' events) (h : s.Sane) (hd : s.Draining) (hg : s'.flights[n]? = some g)
    (hc : g.phase = .closed) : g.output = none := by
  cases hf : s.flights[n]? with
  | some f =>
      obtain ⟨g', hg', hchange⟩ := hm.change hf
      cases hg.symm.trans hg'
      exact hchange.bare (hd.bare n f hf) hc
  | none =>
      have hcourse := hm.course h n
      rw [hf, hg] at hcourse
      cases hcourse with
      | started => cases hc

theorem Move.open_before (hm : Move s act s' events) (h : s.Sane) (hclosed : s.isClosed = true)
    (hg : s'.flights[n]? = some g) (hc : g.phase ≠ .closed) : ∃ f, s.flights[n]? = some f ∧ f.phase ≠ .closed := by
  cases hf : s.flights[n]? with
  | some f =>
      obtain ⟨g', hg', hchange⟩ := hm.change hf
      cases hg.symm.trans hg'
      exact ⟨f, rfl, hchange.opened hc⟩
  | none =>
      obtain ⟨hopen, -⟩ := hm.started h hf hg
      rw [hclosed] at hopen; cases hopen

theorem Move.left (hm : Move s act s' events) (h : s.Sane) (hd : s.Draining) (hclosed : s'.isClosed = true) :
    ∃ k, s'.closing = some k ∧ ∀ (n : Nat) (f : Flight), s'.flights[n]? = some f → f.phase ≠ .closed → n ∈ k.left := by
  -- the list stays as it is, up to a flight that is closed now
  have hlist {k k' : Closing} (hc : s.isClosed = true) (hk : s.closing = some k) (hk' : s'.closing = some k')
      (hleft : ∀ (n : Nat) (g : Flight), s'.flights[n]? = some g → g.phase ≠ .closed → n ∈ k.left → n ∈ k'.left) :
      ∃ k, s'.closing = some k ∧
        ∀ (n : Nat) (f : Flight), s'.flights[n]? = some f → f.phase ≠ .closed → n ∈ k.left := by
    refine ⟨k', hk', fun n g hg hp => ?_⟩
    obtain ⟨f, hf, hp'⟩ := hm.open_before h hc hg hp
    obtain ⟨j, hj, hall⟩ := hd.left hc
    cases hk.symm.trans hj
    exact hleft n g hg hp (hall n f hf hp')
  have hsame (hc : s'.isClosed = s.isClosed) (hk : s'.closing = s.closing) :
      ∃ k, s'.closing = some k ∧
        ∀ (n : Nat) (f : Flight), s'.flights[n]? = some f → f.phase ≠ .closed → n ∈ k.left := by
    have hbefore : s.isClosed = true := hc ▸ hclosed
    obtain ⟨k, hj, -⟩ := hd.left hbefore
    exact hlist hbefore hj (hk.trans hj) fun _ _ _ _ hn => hn
  cases hm with
  | shut _ hopen =>
      refine ⟨_, rfl, fun n f hf hp => ?_⟩
      have hin := h.charted.complete hopen n f hf hp
      simpa [Closing.left, h.pooled] using ⟨f.action, hin⟩
  | @reported _ _ _ _ k undone _ _ hk hstage =>
      refine hlist hclosed hk rfl fun n g _ _ hn => ?_
      simpa [Closing.left, hstage] using hn
  | @undone _ _ _ _ k undone _ _ hk hstage =>
      refine hlist hclosed hk rfl fun n g _ _ hn => ?_
      simpa [Closing.left, hstage] using hn
  | @gaveUp _ _ _ k m more stage _ hk hstage =>
      refine hlist hclosed hk rfl fun n g hg hp hn => ?_
      rcases hstage with ⟨hstage, rfl⟩ | ⟨hstage, rfl⟩
      · simpa [Closing.left, hstage] using hn
      · rw [Closing.left, hstage] at hn
        rcases List.mem_cons.mp hn with rfl | hn
        · obtain ⟨f, hf, rfl⟩ := Option.map_eq_some_iff.mp ((List.getElem?_modify ..).symm.trans hg)
          rw [if_pos rfl] at hp
          exact absurd rfl hp
        · exact hn
  | _ => exact hsame rfl rfl

theorem Move.draining (hm : Move s act s' events) (h : s.Sane) (hd : s.Draining) : s'.Draining :=
  ⟨fun _ _ hg hc => hm.bare h hd hg hc, hm.left h hd⟩

/-! ## At rest -/

/-- The scheduler is closed, and so are all of its flights. -/
structure AtRest (s : Scheduler) : Prop where
  isClosed : s.isClosed = true
  flights : ∀ (n : Nat) (f : Flight), s.flights[n]? = some f → f.phase = .closed ∧ f.output = none

/-- When the call that closes the scheduler returns, nothing is left. -/
theorem Move.comes_to_rest {flights : Nat} (hm : Move s act s' events) (h : s.Sane) (hd : s.Draining)
    (he : .closed flights ∈ events) : s.AtRest := by
  cases hm.news he rfl with
  | @closed _ _ k _ _ hk hstage =>
      have hclosed : s.isClosed = true := h.regular.closing (by simp [hk])
      refine ⟨hclosed, fun n f hf => ?_⟩
      obtain ⟨j, hj, hall⟩ := hd.left hclosed
      cases hk.symm.trans hj
      have hleft : k.left = [] := by simp [Closing.left, hstage]
      have hc : f.phase = .closed := by
        by_cases hc : f.phase = .closed
        · exact hc
        · have := hall n f hf hc
          rw [hleft] at this; cases this
      exact ⟨hc, hd.bare n f hf hc⟩

/-- No move of a scheduler at rest changes a flight, up to its binding and its interruption. -/
theorem AtRest.remains (hr : s.AtRest) (hm : Move s act s' events) (h : s.Sane) :
    s'.flights.map Flight.remains = s.flights.map Flight.remains := by
  apply List.ext_getElem?
  intro n
  rw [List.getElem?_map, List.getElem?_map]
  cases hf : s.flights[n]? with
  | some f =>
      obtain ⟨g, hg, hchange⟩ := hm.change hf
      obtain ⟨hc, hnone⟩ := hr.flights n f hf
      rw [hg, Option.map_some, Option.map_some, hchange.remains hc hnone]
  | none =>
      cases hg : s'.flights[n]? with
      | none => rfl
      | some g =>
          obtain ⟨hopen, -⟩ := hm.started h hf hg
          rw [hr.isClosed] at hopen; cases hopen

theorem AtRest.move (hr : s.AtRest) (hm : Move s act s' events) (h : s.Sane) : s'.AtRest := by
  refine ⟨hm.keeps.closed hr.isClosed, fun n g hg => ?_⟩
  have hview : (s'.flights[n]?).map Flight.remains = (s.flights[n]?).map Flight.remains := by
    rw [← List.getElem?_map, ← List.getElem?_map, hr.remains hm h]
  rw [hg, Option.map_some] at hview
  obtain ⟨f, hf, he⟩ := Option.map_eq_some_iff.mp hview.symm
  obtain ⟨hc, hnone⟩ := hr.flights n f hf
  simp only [Flight.remains, Prod.mk.injEq] at he
  obtain ⟨-, -, -, hphase, houtput, -⟩ := he
  exact ⟨hphase ▸ hc, houtput ▸ hnone⟩

/-- Nothing stirs in a scheduler at rest. -/
theorem AtRest.still (hr : s.AtRest) (hm : Move s act s' events) (he : e ∈ events) : e.stirs = false := by
  cases hst : e.stirs with
  | false => rfl
  | true =>
      have hnews : e.isNews = true := by
        cases e <;> first | rfl | cases hst
      have hclosed {n : Nat} {f : Flight} (hf : s.flights[n]? = some f) : f.phase = .closed := (hr.flights n f hf).1
      cases hm.news he hnews with
      | queued _ hopen => rw [hr.isClosed] at hopen; cases hopen
      | superseded _ hf hc => exact absurd (hclosed hf) hc
      | called _ hf hc | retried _ hf hc | completed _ hf hc => exact absurd (hclosed hf) hc
      | rearmed _ hf hd | delivered _ hf hd => rw [hclosed hf] at hd; cases hd
      | sent | notified | ran | handedBack | closed => cases hst

/-- A thread that is about to start an invocation, or comes from one, finds its flight closed. -/
theorem AtRest.runStep (hr : s.AtRest) (hf : s.flights[n]? = some f) (c : Caller) :
    s.runStep c n .starting = some (s, .returned, []) ∧
      ∀ token outcome, s.runStep c n (.settling token outcome) = some (s, .returned, []) := by
  have hc := (hr.flights n f hf).1
  constructor
  · simp [Scheduler.runStep, hf, Flight.start, hc, setFlight_self hf]
  · intro token outcome
    simp [Scheduler.runStep, hf, Flight.settle, hc, setFlight_self hf]

end Scheduler

end SingleFlight
