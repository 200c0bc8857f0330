import SingleFlight.Proofs.Room
import SingleFlight.Proofs.Carriers
import SingleFlight.Proofs.Pool.Attendance

/-!
# The pool of a scheduler

Whatever a step of a scheduler does to its pool is a step of the pool. So the workers of a scheduler are counted, and
until it is closed its queue is attended, as long as no submission is refused.
-/

namespace SingleFlight

open Scheduler

variable [Payloads]

namespace Scheduler

variable {s s' : Scheduler} {p q : Pool Nat WorkStage} {act : SchedulerAct} {c : Caller} {n w : Nat} {f g : Flight}
  {a b : WorkerPhase Nat WorkStage} {rest : List Call} {refusal : Option IoError} {events : List SchedulerEvent}

theorem Labour.pool_step {name : String} (h : Labour s w name n f act a g b events) (hw : p.phase? w = some a) :
    ∃ step pooled, p.step (.work w step) = some (p.setPhase w b, pooled) ∧ PoolEvent.refusal? pooled = none := by
  cases h with
  | bound => exact ⟨.enter (.running .starting) none, _, by simp only [Pool.step, Pool.work, hw]; rfl, rfl⟩
  | @ran _ _ _ next _ _ =>
      cases next with
      | stay stage => exact ⟨.advance (.running stage), _, by simp only [Pool.step, Pool.work, hw]; rfl, rfl⟩
      | returned => exact ⟨.finish .unbinding none, _, by simp only [Pool.step, Pool.work, hw]; rfl, rfl⟩
      | panicked message =>
          exact ⟨.finish (.failing message) (some message), _, by simp only [Pool.step, Pool.work, hw]; rfl, rfl⟩
  | answered => exact ⟨.advance _, _, by simp only [Pool.step, Pool.work, hw]; rfl, rfl⟩
  | failed | unbound | returned => exact ⟨.advance _, _, by simp only [Pool.step, Pool.work, hw]; rfl, rfl⟩
  | withheld | posted => exact ⟨.complete none, _, by simp only [Pool.step, Pool.work, hw]; rfl, rfl⟩

theorem step_submit (h : s.step (.advance c refusal) = some (s', events)) (hcs : s.callsOf c = .submitting n :: rest)
    (hp : s.pool = some p) :
    s'.pool = some (p.submit n refusal).1 ∧ ∃ more, events = (p.submit n refusal).2.map .pool ++ more := by
  have h : s.submit c rest n refusal = some (s', events) := by
    simpa only [step, advance, hcs, advanceCall] using h
  cases hf : s.flights[n]? with
  | none => simp [submit, hp, hf] at h
  | some f =>
      have hquiet := heed_of_quiet (s := { s with pool := some (p.submit n refusal).1 })
        (Pool.submit_admission p n refusal).quiet
      simp only [submit, hp, hf, withPool, hquiet] at h
      split at h <;> cases h
      · exact ⟨rfl, [.returned c], rfl⟩
      · exact ⟨rfl, _, List.append_assoc _ _ _⟩
      · exact ⟨rfl, _, rfl⟩

/-- What a step does to the pool is nothing or a step of the pool. -/
theorem step_pool (h : s.step act = some (s', events)) (hp : s.pool = some p) :
    ∃ q, s'.pool = some q ∧ (q = p ∨ ∃ step pooled, p.step step = some (q, pooled) ∧
      (PoolEvent.refusal? pooled ≠ none → Refused events)) := by
  have hhalt {step : StopAct} {q : Pool Nat WorkStage} {pooled : List (PoolEvent Nat)}
      (hh : p.halting step = some (q, pooled)) : PoolEvent.refusal? pooled = none := by
    rcases Pool.halting_events hh with ⟨_, rfl⟩ | rfl | ⟨_, _, rfl⟩ | ⟨_, rfl⟩ <;> rfl
  cases step_move h with
  | @submitted c refusal n f p' q pooled rest hcs hf hp' ha =>
      cases hp.symm.trans hp'
      obtain ⟨hq, more, hevents⟩ := step_submit h hcs hp
      refine ⟨q, rfl, .inr ⟨.submit n refusal, (p.submit n refusal).2, ?_, fun hr => ?_⟩⟩
      · rw [show q = (p.submit n refusal).1 from Option.some.inj hq]; rfl
      · obtain ⟨task, error, hmem⟩ := PoolEvent.refused_of_refusal hr
        rw [hevents]
        exact ⟨_, List.mem_append_left _ (List.mem_map_of_mem hmem), rfl⟩
  | worked _ hp' hw _ hl =>
      cases hp.symm.trans hp'
      obtain ⟨step, pooled, hs, hno⟩ := hl.pool_step hw
      exact ⟨_, rfl, .inr ⟨_, pooled, hs, fun hr => absurd hno hr⟩⟩
  | @warned w _ _ _ _ hp' hw hst =>
      cases hp.symm.trans hp'
      exact ⟨_, rfl, .inr ⟨.work w .heed, _, by simp only [Pool.step, Pool.work, hw]; rfl,
        by simp [hst, PoolEvent.refusal?]⟩⟩
  | @idled _ w step _ q pooled _ hp' hw _ he =>
      cases hp.symm.trans hp'
      exact ⟨q, rfl, .inr ⟨.work w step, pooled, hw, by rcases he with rfl | rfl <;> simp [PoolEvent.refusal?]⟩⟩
  | @halted _ _ _ step _ q _ _ _ _ _ hp' hh | @alarmed _ _ _ step _ _ q _ _ _ _ hp' hh
  | @abandoned _ _ _ q _ _ hp' _ hh =>
      cases hp.symm.trans hp'
      exact ⟨q, rfl, .inr ⟨.stop _, _, hh, fun hr => absurd (hhalt hh) hr⟩⟩
  | _ => exact ⟨p, hp, .inl rfl⟩

end Scheduler

namespace System

variable {sys sys' : System} {act : SystemAct} {history : List Moment} {events : List SchedulerEvent}
  {p q : Pool Nat WorkStage}

theorem Begins.pool_new (h : sys.Begins) (hp : sys.scheduler.pool = some p) :
    ∃ name settings, p = .create name settings := by
  rcases h.pool with hnone | ⟨name, settings, hp'⟩
  · cases hnone.symm.trans hp
  · cases hp'.symm.trans hp; exact ⟨name, settings, rfl⟩

/-- What a step of the whole does to the pool is nothing or a step of the pool. -/
theorem step_pool (h : sys.step act = some (sys', events)) (hq : sys'.scheduler.pool = some q) :
    ∃ p, sys.scheduler.pool = some p ∧ (q = p ∨ ∃ step pooled, p.step step = some (q, pooled) ∧
      (PoolEvent.refusal? pooled ≠ none → Refused events)) := by
  cases act with
  | dropLoop => cases h; exact ⟨q, hq, .inl rfl⟩
  | thread a =>
      obtain ⟨loop, -, h⟩ := Option.bind_eq_some_iff.mp h
      obtain ⟨⟨s, inner⟩, hs, h⟩ := Option.map_eq_some_iff.mp h
      cases h
      obtain ⟨p, hp, -⟩ := (step_move hs).pool_before hq
      obtain ⟨q', hq', hstep⟩ := Scheduler.step_pool hs hp
      cases hq.symm.trans hq'
      exact ⟨p, hp, hstep⟩

/-! ## Settings -/

theorem Reachable.valid (h : Reachable history sys) (hp : sys.scheduler.pool = some p) :
    p.settings.validate = .ok () := by
  obtain ⟨plan, identity, tag, processors, s, -, hopen, hrun⟩ := h
  induction hrun generalizing p with
  | start =>
      rcases Plan.opening_cases hopen with ⟨-, rfl⟩ | ⟨settings, -, -, hvalid, rfl⟩
      · cases hp
      · cases hp; exact hvalid
  | step _ hs ih =>
      refine step_scheduler (P := fun s => ∀ p, s.pool = some p → p.settings.validate = .ok ()) hs
        (fun _ hp => ih hp) (fun hm q hq => ?_) p hp
      obtain ⟨p, hp, hfixed⟩ := hm.pool_before hq
      exact (congrArg PoolSettings.validate hfixed.settings).trans (ih hp)

theorem Reachable.capacity_pos (h : Reachable history sys) (hp : sys.scheduler.pool = some p) :
    0 < p.channel.capacity := by
  rw [h.capacity p hp]
  have hvalid := h.valid hp
  refine Nat.pos_of_ne_zero fun hzero => ?_
  simp only [PoolSettings.validate, PoolSettings.fault?, hzero, if_true] at hvalid
  split at hvalid
  · cases hvalid
  · rename_i hnone
    split at hnone
    · cases hnone
    · split at hnone <;> cases hnone

/-! ## Workers -/

theorem Reachable.counted (h : Reachable history sys) : ∀ p, sys.scheduler.pool = some p → p.Counted := by
  refine h.invariant (P := fun _ sys => ∀ p, sys.scheduler.pool = some p → p.Counted) (fun sys hb p hp => ?_) ?_
  · obtain ⟨name, settings, rfl⟩ := hb.pool_new hp
    exact rfl
  · intro _ sys act sys' events hreach ih hs q hq
    obtain ⟨p, hp, rfl | ⟨step, pooled, hstep, -⟩⟩ := step_pool hs hq
    · exact ih q hp
    · exact (Pool.step_move hstep).counted (ih p hp) (hreach.regular.manned p hp)

/-- While the scheduler is open and no submission was refused, the queue is attended. -/
theorem Reachable.attended (h : Reachable history sys) (hopen : sys.scheduler.isClosed = false)
    (hnever : NeverRefused history) : ∀ p, sys.scheduler.pool = some p → p.Attended := by
  have hstopping (p : Pool Nat WorkStage) (hp : sys.scheduler.pool = some p) : p.isStopping = false :=
    Bool.eq_false_iff.mpr fun hst => by rw [h.regular.stopping p hp hst] at hopen; cases hopen
  suffices ∀ p, sys.scheduler.pool = some p → p.isStopping = false → p.Attended from
    fun p hp => this p hp (hstopping p hp)
  refine h.invariant (P := fun history sys => NeverRefused history →
    ∀ p, sys.scheduler.pool = some p → p.isStopping = false → p.Attended) (fun sys hb _ p hp _ => ?_) ?_ hnever
  · obtain ⟨name, settings, rfl⟩ := hb.pool_new hp
    exact .create name settings
  · intro history sys act sys' events _ ih hs hnever q hq hst
    have hbefore := ih fun m hm => hnever m (List.mem_cons_of_mem _ hm)
    obtain ⟨p, hp, rfl | ⟨step, pooled, hstep, hrefused⟩⟩ := step_pool hs hq
    · exact hbefore q hp hst
    · have hno : PoolEvent.refusal? pooled = none :=
        Classical.byContradiction fun hne => hnever _ List.mem_cons_self (hrefused hne)
      exact (hbefore p hp (Pool.isStopping_before hstep hst)).step hstep hst hno

end System

end SingleFlight
