import SingleFlight.Proofs.LastWrite
import SingleFlight.Proofs.Quiescence
import SingleFlight.Proofs.Scheduler.Latest

/-!
# The last outcome of an action

With a pool, the outcome of an action that went to its callback last is the one of its latest flight, once this flight
was told at all. A scheduler that is at rest has told every flight.
-/

namespace SingleFlight

open Scheduler

variable [Payloads]

/-- The flight and the outcome that goes to the callback of the action, if there is one. -/
def SchedulerEvent.telling? (id : ActionId) : SchedulerEvent → Option (Nat × Delivery)
  | .notified _ n action _ d => if action = id then some (n, d) else none
  | _ => none

namespace Scheduler

theorem mem_telling {events : List SchedulerEvent} {id : ActionId} {x : Nat × Delivery}
    (h : x ∈ events.filterMap (SchedulerEvent.telling? id)) :
    ∃ c kind, .notified c x.1 id kind x.2 ∈ events := by
  obtain ⟨e, he, hx⟩ := List.mem_filterMap.mp h
  cases e with
  | notified c n action kind d =>
      simp only [SchedulerEvent.telling?] at hx
      split at hx
      · rename_i e; cases hx; exact ⟨c, kind, e ▸ he⟩
      · cases hx
  | _ => cases hx

end Scheduler

namespace System

variable {sys sys' : System} {a : SchedulerAct} {history : List Moment} {events : List SchedulerEvent} {n : Nat}
  {id : ActionId}

/-- The outcome of the action that went to its callback last, with its flight. -/
def lastTold (id : ActionId) : List Moment → Option (Nat × Delivery)
  | [] => none
  | moment :: history => (moment.events.filterMap (SchedulerEvent.telling? id)).getLast?.or (lastTold id history)

/-- The outcome of a latest flight that was told is the last one of the action. -/
def Told (history : List Moment) (sys : System) : Prop :=
  ∀ id n, sys.scheduler.IsLatest id n → 0 < notificationCount n history →
    ∃ r o, sys.scheduler.registration? id = some r ∧ Rightful sys.scheduler history n o ∧
      lastTold id history = some (n, r.deliver o)

theorem Delivering.fixed (h : Delivering history sys) (hs : sys.scheduler.Sane)
    (hm : Move sys.scheduler a sys'.scheduler events) (hd : deliveryCount n history ≠ 0) : inputs n events = [] :=
  Classical.byContradiction fun he => hd (h.accepts hs hm he)

theorem Delivering.delivered (h : Delivering history sys) (hn : 0 < notificationCount n history) :
    deliveryCount n history ≠ 0 ∧ ∃ f, sys.scheduler.flights[n]? = some f := by
  have htold := h.told n
  refine ⟨by omega, ?_⟩
  cases hf : sys.scheduler.flights[n]? with
  | some f => exact ⟨f, rfl⟩
  | none =>
      have := h.pending n (by simp [standing, hf])
      omega

/-- A move that tells the latest flight of an action. -/
theorem Told.tell {d : Delivery} {c : Caller} {kind : ActionKind} (hs : sys.scheduler.Sane) (hdel : Delivering history sys)
    (htracks : Tracks history sys) (hm : Move sys.scheduler a sys'.scheduler events)
    (he : .notified c n id kind d ∈ events) :
    ∃ r o, sys'.scheduler.registration? id = some r ∧
      Rightful sys'.scheduler ({ act := .thread a, events } :: history) n o ∧
      lastTold id ({ act := .thread a, events } :: history) = some (n, r.deliver o) := by
  obtain ⟨-, o, rest, f, r, hcs, hf, ha, hr, rfl⟩ := hm.tells hs he
  have hx : .delivering n o ∈ sys.scheduler.callsOf .owner := hcs ▸ List.mem_cons_self
  have hdelivered : deliveryCount n history ≠ 0 := by
    have hpos : 0 < (sys.scheduler.callsOf .owner).countP (Call.delivers n) :=
      List.countP_pos_iff.mpr ⟨_, hx, by simp [Call.delivers]⟩
    have := hdel.told n
    omega
  refine ⟨r, o, hm.keeps.registration? id ▸ hr, (htracks.taken n o hx).move hs hm (hdel.fixed hs hm hdelivered), ?_⟩
  have honly (x : Nat × Delivery) (hx : x ∈ events.filterMap (SchedulerEvent.telling? id)) : x = (n, r.deliver o) := by
    obtain ⟨c, kind, he⟩ := mem_telling hx
    obtain ⟨-, o', rest', -, r', hcs', -, -, hr', hd⟩ := hm.tells hs he
    cases hcs.symm.trans hcs'
    cases hr.symm.trans hr'
    exact Prod.ext rfl hd
  have hmem : (n, r.deliver o) ∈ events.filterMap (SchedulerEvent.telling? id) :=
    List.mem_filterMap.mpr ⟨_, he, by simp [SchedulerEvent.telling?]⟩
  rw [lastTold]
  cases hlast : (events.filterMap (SchedulerEvent.telling? id)).getLast? with
  | none => rw [List.getLast?_eq_none_iff.mp hlast] at hmem; cases hmem
  | some x => rw [honly x (List.mem_of_getLast? hlast)]; rfl

theorem Told.step_move (h : Told history sys) (hs : sys.scheduler.Sane) (hfore : sys.scheduler.Foremost)
    (hdel : Delivering history sys) (htracks : Tracks history sys) (hm : Move sys.scheduler a sys'.scheduler events) :
    Told ({ act := .thread a, events } :: history) sys' := by
  intro id n hlatest hpos
  by_cases hn : notifications n events = 0
  · have hpos : 0 < notificationCount n history := by simpa [notificationCount, hn] using hpos
    obtain ⟨hdelivered, f, hf⟩ := hdel.delivered hpos
    have hbefore := hlatest.before hm hf
    obtain ⟨r, o, hr, hright, hlast⟩ := h id n hbefore hpos
    -- another flight of the action that is told now would be the latest one
    have hnone : events.filterMap (SchedulerEvent.telling? id) = [] := by
      rw [List.eq_nil_iff_forall_not_mem]
      rintro ⟨m, d⟩ hx
      obtain ⟨c, kind, he⟩ := mem_telling hx
      obtain ⟨-, o', rest, g, -, hcs, hg, ha, -, -⟩ := hm.tells hs he
      obtain ⟨g', hg', hlatest'⟩ := hfore.delivered m o' (hcs ▸ List.mem_cons_self)
      cases hg.symm.trans hg'
      obtain rfl : n = m := hbefore.unique (ha ▸ hlatest')
      exact List.countP_eq_zero.mp hn _ he (by simp [SchedulerEvent.notifies])
    exact ⟨r, o, hm.keeps.registration? id ▸ hr, hright.move hs hm (hdel.fixed hs hm hdelivered),
      by rw [lastTold, hnone]; exact hlast⟩
  · obtain ⟨e, he, hnotifies⟩ := List.countP_pos_iff.mp (Nat.pos_of_ne_zero hn)
    cases e with
    | notified c m action kind d =>
        obtain rfl : m = n := by simpa [SchedulerEvent.notifies] using hnotifies
        obtain ⟨-, -, -, f, -, -, hf, rfl, -, -⟩ := hm.tells hs he
        obtain ⟨f', hf', ha⟩ := (hlatest.before hm hf).started
        cases hf.symm.trans hf'
        exact Told.tell hs hdel htracks hm (ha ▸ he)
    | _ => cases hnotifies

theorem Reachable.told (h : Reachable history sys) (hpool : sys.scheduler.isSynchronous = false)
    (hcopy : Copyable history) (hfew : FewInputs history) : Told history sys := by
  refine h.sane_invariant (P := fun history sys => Copyable history → FewInputs history → Told history sys)
    (fun _ _ _ _ _ _ _ hpos => by cases hpos) ?_ hpool hcopy hfew
  intro history sys act sys' events hreach hs ih hstep hcopy hfew
  have hcopied : Copyable history := fun m hm => hcopy m (List.mem_cons_of_mem _ hm)
  have htold := ih hcopied hfew.earlier
  rcases step_cases hstep with ⟨rfl, rfl, rfl⟩ | ⟨a, loop, rfl, -, hm, -⟩
  · intro id n hlatest hpos
    obtain ⟨r, o, hr, hright, hlast⟩ := htold id n hlatest hpos
    exact ⟨r, o, hr, hright.later rfl rfl fun f hf => ⟨f, hf, rfl, Nat.le_refl _⟩, hlast⟩
  · exact htold.step_move hs (hreach.foremost hs.pooled) (hreach.delivering hs.pooled)
      (hreach.tracks hs.pooled hcopied hfew.earlier) hm

/-- At rest, the last outcome of an action is that of its latest flight. -/
theorem Reachable.told_at_rest (h : Reachable history sys) (hpool : sys.scheduler.isSynchronous = false)
    (hopen : sys.scheduler.isClosed = false) (hloop : sys.loop.isClosed = false) (hnever : NeverRefused history)
    (hcopy : Copyable history) (hfew : FewInputs history) (hq : sys.Quiescent) (hlatest : sys.scheduler.IsLatest id n) :
    ∃ r o, sys.scheduler.registration? id = some r ∧ Rightful sys.scheduler history n o ∧
      lastTold id history = some (n, r.deliver o) := by
  have hdel := h.delivering hpool
  obtain ⟨f, hf, -⟩ := hlatest.started
  have hclosed : (sys.scheduler.standing n).phase = some .closed := by
    simp [standing, hf, h.landed hpool hopen hloop hnever hq hf]
  have hdelivered := hdel.landed hopen n hclosed
  have htold := hdel.told n
  rw [hq.calls, List.countP_nil] at htold
  exact h.told hpool hcopy hfew id n hlatest (by omega)

end System

end SingleFlight
