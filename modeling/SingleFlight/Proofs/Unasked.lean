import Mathlib.Logic.Relation
import SingleFlight.Proofs.Quiescence
import SingleFlight.Proofs.Silence

/-!
# Schedulers that nothing more is asked of

When nobody requests anything more of a scheduler with a pool that is left in peace, it serves what was requested and
comes to rest, whichever steps it takes.
-/

namespace SingleFlight

open Scheduler

/-! ## Whatever comes -/

/-- `Inevitably Next P x`: there is no way on from `x` that does not come to `P` after finitely many steps. -/
inductive Inevitably {α : Type} (Next : α → α → Prop) (P : α → Prop) : α → Prop
  | now {x : α} : P x → Inevitably Next P x
  | later {x : α} : (∃ y, Next x y) → (∀ y, Next x y → Inevitably Next P y) → Inevitably Next P x

/-- What gets on until it comes to `P`, and closer with every step, comes to `P`. -/
theorem Inevitably.of_closer {α : Type} {Next closer : α → α → Prop} {P Q : α → Prop} (hwf : WellFounded closer)
    (honward : ∀ x, Q x → P x ∨ ∃ y, Next x y) (hstep : ∀ x y, Q x → Next x y → Q y ∧ closer y x) {x : α} (hx : Q x) :
    Inevitably Next P x := by
  induction x using hwf.induction with
  | _ x ih =>
      rcases honward x hx with hnow | hnext
      · exact .now hnow
      · exact .later hnext fun y hy => ih y (hstep x y hx hy).2 (hstep x y hx hy).1

/-! ## Steps without a request -/

variable [Payloads]

/-- Nobody requests anything or closes the scheduler, and every thread can be created. -/
def SchedulerAct.isUnasked : SchedulerAct → Bool
  | .apply _ _ _ => false
  | .close _ => false
  | .advance _ refusal => refusal.isNone
  | _ => true

/-- The request that the owner is about to look for a flight for. -/
def Call.request? : Call → Option (ActionId × Payload)
  | .applying id input => some (id, input)
  | _ => none

namespace SchedulerAct

variable {act : SchedulerAct}

theorem isUnasked_of_isPlain (h : act.isPlain = true) : act.isUnasked = true := by
  cases act with
  | apply | close | reply => cases h
  | advance => exact h
  | _ => rfl

theorem gentle_of_isUnasked (h : act.isUnasked = true) (s : Scheduler) : s.Gentle act := by
  cases act with
  | apply | close => cases h
  | advance => exact Option.isNone_iff_eq_none.mp h
  | _ => trivial

theorem not_apply_of_isUnasked (h : act.isUnasked = true) (c : Caller) (id : ActionId) (input : Payload) :
    act ≠ .apply c id input := by
  rintro rfl; cases h

end SchedulerAct

namespace Scheduler

variable {s s' : Scheduler} {p : Pool Nat WorkStage} {act : SchedulerAct} {n : Nat} {f g : Flight} {e : ActionId × Payload}
  {events : List SchedulerEvent}

/-- The queue has a place for every action. -/
def Ample (s : Scheduler) : Prop := ∀ p, s.pool = some p → s.registrations.length ≤ p.channel.capacity

theorem Move.ample (hm : Move s act s' events) (h : s.Ample) : s'.Ample := by
  intro q hq
  obtain ⟨p, hp, hfixed⟩ := hm.pool_before hq
  rw [hm.keeps.registrations, hfixed.capacity]
  exact h p hp

/-- The actions and newest inputs of all flights, in the order of their numbers. -/
def served (s : Scheduler) : List (ActionId × Payload) := s.flights.map fun f => (f.action, f.input)

/-- The requests of the owner that have no flight yet. -/
def asked (s : Scheduler) : List (ActionId × Payload) := (s.callsOf .owner).filterMap Call.request?

theorem getElem?_served : s.served[n]? = (s.flights[n]?).map fun f => (f.action, f.input) := List.getElem?_map ..

theorem mem_served : e ∈ s.served ↔ ∃ (n : Nat) (f : Flight), s.flights[n]? = some f ∧ (f.action, f.input) = e := by
  simp only [List.mem_iff_getElem?, getElem?_served, Option.map_eq_some_iff]

theorem asked_setCalls (s : Scheduler) (cs : List Call) : (s.setCalls .owner cs).asked = cs.filterMap Call.request? := by
  rw [asked, callsOf_setCalls_self]

theorem served_congr (h : ∀ m : Nat, (s'.flights[m]?).map (fun f => (f.action, f.input))
    = (s.flights[m]?).map fun f => (f.action, f.input)) : s'.served = s.served :=
  List.ext_getElem? fun m => by rw [getElem?_served, getElem?_served, h m]

end Scheduler

namespace System

variable {sys sys' : System} {act : SchedulerAct} {history : List Moment} {events : List SchedulerEvent} {n : Nat}
  {id : ActionId}

theorem Steady.roomy (h : Steady history sys) (hample : sys.scheduler.Ample) : sys.scheduler.Roomy := by
  intro p n rest hp hcs
  have hlength := (waiting_submitting hp hcs).length_le h.sane (h.reached.registered h.pooled)
  have hroom := hample p hp
  simp only [List.length_cons] at hlength
  omega

/-- Without a new request, a request that has no flight gets one, or both the requests and the flights stay as they
are. -/
theorem Steady.requests (h : Steady history sys) (hact : act.isUnasked = true)
    (hloop : ∀ job, act = .run job → job ∈ sys.loop.queue) (hm : Move sys.scheduler act sys'.scheduler events) :
    (sys'.scheduler.served = sys.scheduler.served ∧ sys'.scheduler.asked = sys.scheduler.asked) ∨
      ∃ e, sys.scheduler.asked = e :: sys'.scheduler.asked ∧ sys'.scheduler.served = sys.scheduler.served ++ [e] := by
  have hs := h.sane
  have hfed := (h.reached.fed h.pooled h.copyable.usable).1
  have hdone {y : Call} {rest : List Call} (hcs : sys.scheduler.callsOf .owner = y :: rest) (hy : y.request? = none) :
      rest.filterMap Call.request? = sys.scheduler.asked := by
    rw [asked, hcs, List.filterMap_cons_none hy]
  -- a flight is launched for the request that was to be served, and every other move leaves both lists as they are
  generalize sys'.scheduler = s' at hm ⊢
  cases hm with
  | unknown | mismatched | late | inlined | shutAgain | shut => cases hact
  | ignored => exact .inl ⟨rfl, rfl⟩
  | @turned _ c cs _ ht =>
      generalize hcs : sys.scheduler.callsOf c = before at ht
      have hcalls {cs : List Call} (hsay : cs.filterMap Call.request? = sys.scheduler.asked) :
          (sys.scheduler.setCalls .owner cs).served = sys.scheduler.served ∧
            (sys.scheduler.setCalls .owner cs).asked = sys.scheduler.asked :=
        ⟨rfl, (asked_setCalls _ _).trans hsay⟩
      cases ht with
      | requested | sent => cases hact
      | received =>
          obtain ⟨_, _, e, -⟩ := h.jobs _ (hloop _ rfl)
          cases e
      | landed => exact .inl (hcalls (by rw [asked, hcs]; rfl))
      | lapsed hc => cases hc.symm.trans h.isOpen
      | @found _ _ id given _ _ _ hsome =>
          obtain rfl := (h.caller hcs).1
          cases (h.fresh id given (hcs ▸ List.mem_cons_self)).symm.trans hsome
      | @unknown _ _ id given _ _ _ hnone =>
          obtain ⟨-, r, hr, -⟩ := hfed.calls c (.applying id given) (hcs ▸ List.mem_cons_self)
          cases hnone.symm.trans hr
      | posted | incomparable | coalesced | rejected | missed | answered | closed => cases (h.caller hcs).2
      | stale | awaiting | notified | settled | left | panicked =>
          obtain rfl := (h.caller hcs).1
          have hrest := hdone hcs rfl
          exact .inl (hcalls hrest)
  | @launched c _ id input r rest hcs _ _ hr =>
      obtain rfl := (h.caller hcs).1
      have hid : r.id = id := hs.charted.numbered id.index r hr
      refine .inr ⟨(id, input), ?_, ?_⟩
      · rw [asked_setCalls, asked, hcs]; rfl
      · simp [served, Flight.of, hid]
  | superseded hcs | rearmed hcs => cases (h.caller hcs).2
  | submitted hcs =>
      obtain rfl := (h.caller hcs).1
      exact .inl ⟨rfl, (asked_setCalls _ _).trans (hdone hcs rfl)⟩
  | collected hcs hf =>
      obtain rfl := (h.caller hcs).1
      have hrest := hdone hcs rfl
      exact .inl ⟨served_congr (map_setFlight _ hf rfl), (asked_setCalls _ _).trans hrest⟩
  | ranInline hcs | took hcs => cases (h.caller hcs).2
  | worked _ _ _ hf hl =>
      exact .inl ⟨served_congr (map_setFlight _ hf (by rw [hl.persists.action, hl.input])), rfl⟩
  | warned _ hp _ hstop => cases (h.not_stopping hp).symm.trans hstop
  | idled => exact .inl ⟨rfl, rfl⟩
  | halted _ hk | alarmed _ hk | reported _ hk | undone _ hk | gaveUp _ hk => exact absurd hk h.not_closing
  | abandoned hcs => cases (h.caller hcs).2

end System

end SingleFlight
