import SingleFlight.Proofs.Carriers
import SingleFlight.Proofs.Drained
import SingleFlight.Proofs.OpenRequests

/-!
# Silence

With a pool, the owner takes the outcome of a flight only in a job of its loop, and not any more once the scheduler is
closed. So between two of these jobs, and from the closing on, nothing is delivered.
-/

namespace SingleFlight

open Scheduler

variable [Payloads]

namespace Scheduler

variable {s s' : Scheduler} {act : SchedulerAct} {events : List SchedulerEvent}

/-- The owner is not about to look at a flight that was handed back. -/
def Aloof (s : Scheduler) : Prop := ∀ n, .finishing n ∉ s.callsOf .owner

theorem Move.aloof (hm : Move s act s' events) (h : s.Aloof)
    (hquiet : s.isClosed = true ∨ ∀ n, act ≠ .run (.handBack n)) : s'.Aloof := by
  intro n hx
  rcases hm.arises hx with hx | ha
  · exact h n hx
  · cases ha with
    | landed =>
        rcases hquiet with hclosed | hno
        · cases hm with
          | ignored => exact h n hx
          | turned ht => cases ht with | landed _ _ hopen => cases hopen.symm.trans hclosed
          | worked _ _ _ _ hl => cases hl
          | idled hact => rcases hact with e | ⟨-, _, e⟩ <;> cases e
        · exact hno n rfl
    | @ran _ _ _ _ _ _ _ next _ _ _ _ _ hmem => cases next <;> simp [RunStep.calls] at hmem

theorem Move.undelivered (hm : Move s act s' events) (hs : s.Sane) (h : s.Aloof) (n : Nat) :
    SingleFlight.deliveries n events = 0 := by
  refine List.countP_eq_zero.mpr fun e he hdelivers => ?_
  cases e with
  | delivered m id attempts =>
      cases hm.news he rfl with
      | @delivered c _ _ _ rest hcs =>
          rcases hcs with hcs | hcs
          · obtain rfl := hs.regular.orderly.owner hs.pooled hcs (by simp [Call.suits])
            exact h m (hcs ▸ List.mem_cons_self)
          · cases hs.regular.orderly.suited hs.pooled hcs
  | _ => cases hdelivers

end Scheduler

namespace System

variable {sys sys' sys₁ sys₂ sys₃ : System} {history between later : List Moment} {events : List SchedulerEvent}

theorem step_aloof {act : SystemAct} (hstep : sys.step act = some (sys', events)) (hs : sys.scheduler.Sane)
    (h : sys.scheduler.Aloof) (hquiet : sys.scheduler.isClosed = true ∨ ∀ n, act ≠ .thread (.run (.handBack n))) :
    sys'.scheduler.Aloof ∧ ∀ n, deliveries n events = 0 := by
  rcases step_cases hstep with ⟨-, rfl, rfl⟩ | ⟨a, loop, rfl, -, hm, -⟩
  · exact ⟨h, fun _ => rfl⟩
  · exact ⟨hm.aloof h (hquiet.imp_right fun hno n e => hno n (e ▸ rfl)), hm.undelivered hs h⟩

theorem Run.aloof (hrun : Run sys later sys') (hreach : Reachable history sys)
    (hpool : sys.scheduler.isSynchronous = false) (h : sys.scheduler.Aloof)
    (hquiet : sys.scheduler.isClosed = true ∨ ∀ m ∈ later, ∀ n, m.act ≠ .thread (.run (.handBack n))) :
    sys'.scheduler.Aloof ∧ ∀ n, deliveryCount n later = 0 := by
  induction hrun with
  | start => exact ⟨h, fun _ => rfl⟩
  | @step later mid act sys' events hrun hstep ih =>
      obtain ⟨hmid, hnone⟩ := ih (hquiet.imp_right fun hno m hm => hno m (List.mem_cons_of_mem _ hm))
      have hsane := (hreach.run hrun).sane (hrun.synchronous.trans hpool)
      obtain ⟨hsys', hevents⟩ := step_aloof hstep hsane hmid (hquiet.imp hrun.closed fun hno => hno _ List.mem_cons_self)
      exact ⟨hsys', fun n => by rw [deliveryCount, hnone n, hevents n]⟩

theorem aloof_of_isFree (hs : sys.scheduler.Sane) (hfree : sys.scheduler.isFree .owner = true) : sys.scheduler.Aloof :=
  fun _ hx => by cases hs.regular.orderly.outside hfree _ hx

theorem delivers_inside (n : Nat) (x : Call) (h : x.delivers n = true) : x.isOutside = false := by
  cases x with
  | delivering => rfl
  | _ => cases h

/-- What nobody takes does not go to a callback either, unless it was in hand. -/
theorem Reachable.silent (h : Reachable (later ++ history) sys') (hreach : Reachable history sys)
    (hpool : sys.scheduler.isSynchronous = false) (hpool' : sys'.scheduler.isSynchronous = false)
    (hfree : sys.scheduler.isFree .owner = true) {n : Nat} (hnone : deliveryCount n later = 0) :
    notificationCount n later = 0 := by
  have hbefore := (hreach.delivering hpool).told n
  have hafter := (h.delivering hpool').told n
  rw [countP_of_isFree (hreach.sane hpool) hfree (delivers_inside n)] at hbefore
  rw [deliveryCount_append, notificationCount_append, hnone] at hafter
  omega

/-- From a time on when the owner is outside of the scheduler, nothing is delivered if the scheduler is closed before
the owner starts a job that hands back a flight, neither until then nor ever after. -/
theorem Reachable.never_delivered (hreach : Reachable history sys) (hpool : sys.scheduler.isSynchronous = false)
    (hfree : sys.scheduler.isFree .owner = true) (hbetween : Run sys between sys₁)
    (hquiet : ∀ m ∈ between, ∀ n, m.act ≠ .thread (.run (.handBack n)))
    (hclose : sys₁.step (.thread (.close .owner)) = some (sys₂, events)) (hlater : Run sys₂ later sys₃) (n : Nat) :
    deliveryCount n (later ++ { act := .thread (.close .owner), events } :: between) = 0 ∧
      notificationCount n (later ++ { act := .thread (.close .owner), events } :: between) = 0 := by
  have hsync₁ := hbetween.synchronous.trans hpool
  have hsync₂ := (step_synchronous hclose).trans hsync₁
  have hreach₁ := hreach.run hbetween
  obtain ⟨haloof₁, hnone₁⟩ := hbetween.aloof hreach hpool (aloof_of_isFree (hreach.sane hpool) hfree) (.inr hquiet)
  obtain ⟨haloof₂, hnone₂⟩ := step_aloof hclose (hreach₁.sane hsync₁) haloof₁ (.inr (by simp))
  have hclosed : sys₂.scheduler.isClosed = true := by
    obtain ⟨loop, -, hm, -⟩ := step_thread_cases hclose
    exact hm.isClosed_iff.mpr (.inr ⟨_, rfl⟩)
  obtain ⟨-, hnone₃⟩ := hlater.aloof (hreach₁.step hclose) hsync₂ haloof₂ (.inl hclosed)
  have hnone : deliveryCount n (later ++ { act := .thread (.close .owner), events } :: between) = 0 := by
    rw [deliveryCount_append, deliveryCount, hnone₁, hnone₂, hnone₃]
  have hreach₃ := (hreach₁.step hclose).run hlater
  rw [← List.cons_append, ← List.append_assoc] at hreach₃
  exact ⟨hnone, hreach₃.silent hreach hpool (hlater.synchronous.trans hsync₂) hfree hnone⟩

end System

end SingleFlight
