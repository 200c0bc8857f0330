import SingleFlight.Proofs.Closing
import SingleFlight.Proofs.Scheduler.Bindings

/-!
# Bindings that are left behind

A flight names the worker that is bound to it. A worker takes its binding back in the hook after the flight, but only
from a flight that has come to its end. If a newer input queued the flight again meanwhile, the worker leaves its name
behind, and the flight keeps it until the next worker is bound.
-/

namespace SingleFlight

open Scheduler

/-- A worker that is about to start the flight and is not any more has started it. -/
theorem Shift.unstarting {closed refused : Prop} {st st' : Standing} (h : Shift closed refused st st')
    (hp : st.phase = some .queued) (hp' : st'.phase = some .queued) (h0 : st'.starting = 0) : st.starting = 0 := by
  cases h with
  | kept e => rw [← e]; exact h0
  | refused _ _ _ hy | shed _ _ _ hy => exact hy ▸ h0
  | entered | retried => omega
  | begun _ _ h' | stored _ _ h' | declined _ h' | dropped _ h' | landed _ h' => rw [h'] at hp'; cases hp'
  | launched h' | rearmed h' => rw [h'] at hp; cases hp

section

variable [Payloads]

namespace System

variable {sys sys' : System} {act : SystemAct} {history : List Moment} {events : List SchedulerEvent}
  {p q : Pool Nat WorkStage} {n w : Nat}

/-- The worker left its binding behind: it was bound to the flight, a newer input queued the flight again, and after
that the worker took its step to take the binding back. Nobody was bound to the flight since. -/
def LeftBehind (history : List Moment) (sys : System) (n w : Nat) : Prop :=
  ∃ since left ran bound before sys₀ p, history = since ++ left :: (ran ++ bound :: before) ∧
    boundTo? n bound.events = some (p.workerName w) ∧ (∃ moment ∈ ran, Requeued n moment.events) ∧
    Reachable (ran ++ bound :: before) sys₀ ∧ sys₀.scheduler.PassesOver p n w ∧
    (∃ refusal, left.act = .thread (.advance (.worker w) refusal)) ∧ Run sys₀ (since ++ [left]) sys ∧
    ∀ moment ∈ since ++ left :: ran, boundTo? n moment.events = none

theorem LeftBehind.step (h : LeftBehind history sys n w) (hs : sys.step act = some (sys', events))
    (hnone : boundTo? n events = none) : LeftBehind ({ act, events } :: history) sys' n w := by
  obtain ⟨since, left, ran, bound, before, sys₀, p, rfl, hbound, hrequeued, hreach, hpass, hact, hrun, hsince⟩ := h
  exact ⟨{ act, events } :: since, left, ran, bound, before, sys₀, p, rfl, hbound, hrequeued, hreach, hpass, hact,
    hrun.step hs, List.forall_mem_cons.mpr ⟨hnone, hsince⟩⟩

/-- The newest binding of the flight names this worker; the flight is only queued since if a newer input queued it
again, or if the worker has not started yet. -/
def NewestBinding (history : List Moment) (sys : System) (n : Nat) (name : String) : Prop :=
  ∃ ran bound before, history = ran ++ bound :: before ∧ boundTo? n bound.events = some name ∧
    (∀ moment ∈ ran, boundTo? n moment.events = none) ∧
    ((sys.scheduler.standing n).phase = some .queued → (sys.scheduler.standing n).starting = 0 →
      ∃ moment ∈ ran, Requeued n moment.events)

theorem NewestBinding.step {name : String} (h : NewestBinding history sys n name) (hnone : boundTo? n events = none)
    (hqueued : (sys'.scheduler.standing n).phase = some .queued → (sys'.scheduler.standing n).starting = 0 →
      (sys.scheduler.standing n).phase = some .queued ∧ (sys.scheduler.standing n).starting = 0 ∨ Requeued n events) :
    NewestBinding ({ act, events } :: history) sys' n name := by
  obtain ⟨ran, bound, before, rfl, hbound, hran, hrequeued⟩ := h
  refine ⟨{ act, events } :: ran, bound, before, rfl, hbound, List.forall_mem_cons.mpr ⟨hnone, hran⟩, fun hp h0 => ?_⟩
  rcases hqueued hp h0 with ⟨hp, h0⟩ | hagain
  · obtain ⟨moment, hmem, hagain⟩ := hrequeued hp h0
    exact ⟨moment, List.mem_cons_of_mem _ hmem, hagain⟩
  · exact ⟨_, List.mem_cons_self, hagain⟩

/-- What a history says of the bindings. -/
structure Traced (history : List Moment) (sys : System) : Prop where
  tied : sys.scheduler.Tied
  newest : ∀ n name, sys.scheduler.binding? n = some name → NewestBinding history sys n name
  named : ∀ p n name, sys.scheduler.pool = some p → sys.scheduler.binding? n = some name →
    ∃ w, name = p.workerName w
  kept : ∀ p n w, sys.scheduler.pool = some p → sys.scheduler.binding? n = some (p.workerName w) →
    (∃ a, p.phase? w = some a ∧ a.serves n = true ∧ a.isPast n = false) ∨ LeftBehind history sys n w

theorem Traced.move_newest {a : SchedulerAct} {name : String} (h : Traced history sys)
    (hm : Move sys.scheduler a sys'.scheduler events) (hs : sys.scheduler.Sane) (hp : sys.scheduler.pool = some p)
    (hq : sys'.scheduler.pool = some q) (hb : sys'.scheduler.binding? n = some name) :
    NewestBinding ({ act := .thread a, events } :: history) sys' n name := by
  cases hm.rebinding hp hq n with
  | kept he hnone =>
      have hb' := he.symm.trans hb
      refine (h.newest n name hb').step hnone fun hqueued h0 => ?_
      rcases hm.queues hqueued with hbefore | hnew | hagain
      · exact .inl ⟨hbefore, (hm.shift hs.regular hs.pooled n).unstarting hbefore hqueued h0⟩
      · have hnone : sys.scheduler.flights[n]? = none := by simpa [standing] using hnew
        simp [binding?, hnone] at hb'
      · exact .inr hagain
  | bound _ hv he hbound =>
      obtain rfl := Option.some.inj (he.symm.trans hb)
      refine ⟨[], _, history, rfl, hbound, by simp, fun _ h0 => ?_⟩
      have := starting_pos hq hv (n := n) (by simp)
      omega
  | released _ _ he => rw [hb] at he; cases he

theorem Traced.move_named {a : SchedulerAct} {name : String} (h : Traced history sys)
    (hm : Move sys.scheduler a sys'.scheduler events) (hp : sys.scheduler.pool = some p)
    (hq : sys'.scheduler.pool = some q) (hb : sys'.scheduler.binding? n = some name) : ∃ w, name = q.workerName w := by
  cases hm.rebinding hp hq n with
  | kept he =>
      obtain ⟨w, rfl⟩ := h.named p n name hp (he.symm.trans hb)
      exact ⟨w, (hm.workerName hp hq w).symm⟩
  | @bound w _ _ he =>
      obtain rfl := Option.some.inj (he.symm.trans hb)
      exact ⟨w, (hm.workerName hp hq w).symm⟩
  | released _ _ he => rw [hb] at he; cases he

/-- A worker keeps its binding to a flight that has not come to its end only if a newer input queued the flight. -/
theorem Traced.passesOver {f : Flight} {panic : Option String} (h : Traced history sys) (hs : sys.scheduler.Sane)
    (hp : sys.scheduler.pool = some p) (hidle : sys.scheduler.callsOf (.worker w) = [])
    (hw : p.phase? w = some (.worked n panic .unbinding)) (hf : sys.scheduler.flights[n]? = some f)
    (hb : sys.scheduler.binding? n = some (p.workerName w))
    (hphase : ¬ (f.phase = .completed ∨ f.phase = .closed)) :
    sys.scheduler.PassesOver p n w ∧ (sys.scheduler.standing n).starting = 0 := by
  have hstanding : (sys.scheduler.standing n).phase = some f.phase := by simp [standing, hf]
  -- whoever runs the flight is bound to it and would be this worker
  have hnobody {v : Nat} {a : WorkerPhase Nat WorkStage} (hv : p.phase? v = some a)
      (ha : a.isStarting n = true ∨ a.isInside n = true) : False := by
    obtain rfl := Pool.workerName_inj (Option.some.inj ((h.tied.bound p v n a hp hv ha).symm.trans hb))
    cases hw.symm.trans hv
    simp at ha
  refine ⟨⟨hp, hidle, ⟨panic, hw⟩, hb, ?_⟩, ?_⟩
  · cases hphase' : f.phase with
    | queued => rw [hstanding, hphase']
    | running =>
        obtain ⟨v, a, hv, ha, -⟩ := h.tied.running hs hp (hstanding.trans (congrArg some hphase'))
        exact (hnobody hv ha).elim
    | completed => exact absurd (.inl hphase') hphase
    | closed => exact absurd (.inr hphase') hphase
  · refine Nat.eq_zero_of_not_pos fun hpos => ?_
    simp only [standing, hp, Option.elim_some] at hpos
    obtain ⟨v, a, hv, hstart⟩ := Pool.exists_of_tally (hs.regular.manned p hp) hpos
    exact hnobody hv (.inl hstart)

theorem Traced.leaves {f : Flight} {panic : Option String} (h : Traced history sys) (hreach : Reachable history sys)
    (hs : sys.scheduler.Sane) (hstep : sys.step act = some (sys', events))
    (hact : ∃ refusal, act = .thread (.advance (.worker w) refusal)) (hp : sys.scheduler.pool = some p)
    (hidle : sys.scheduler.callsOf (.worker w) = []) (hw : p.phase? w = some (.worked n panic .unbinding))
    (hf : sys.scheduler.flights[n]? = some f) (hb : sys.scheduler.binding? n = some (p.workerName w))
    (hphase : ¬ (f.phase = .completed ∨ f.phase = .closed)) (hnone : boundTo? n events = none) :
    LeftBehind ({ act, events } :: history) sys' n w := by
  obtain ⟨hpass, h0⟩ := h.passesOver hs hp hidle hw hf hb hphase
  obtain ⟨ran, bound, before, rfl, hbound, hran, hrequeued⟩ := h.newest n _ hb
  exact ⟨[], { act, events }, ran, bound, before, sys, p, rfl, hbound, hrequeued hpass.queued h0, hreach, hpass, hact,
    .step .start hstep, List.forall_mem_cons.mpr ⟨hnone, hran⟩⟩

theorem Traced.step_kept (h : Traced history sys) (hreach : Reachable history sys) (hs : sys.scheduler.Sane)
    (hstep : sys.step act = some (sys', events)) {a : SchedulerAct} (hact : act = .thread a)
    (hm : Move sys.scheduler a sys'.scheduler events) (hp : sys.scheduler.pool = some p)
    (hq : sys'.scheduler.pool = some q) (hb : sys'.scheduler.binding? n = some (q.workerName w)) :
    (∃ a, q.phase? w = some a ∧ a.serves n = true ∧ a.isPast n = false) ∨
      LeftBehind ({ act, events } :: history) sys' n w := by
  rw [hm.workerName hp hq] at hb
  cases hm.rebinding hp hq n with
  | released _ _ he => rw [hb] at he; cases he
  | bound _ hv he =>
      obtain rfl := Pool.workerName_inj (Option.some.inj (he.symm.trans hb))
      exact .inl ⟨_, hv, by simp [WorkerPhase.serves], rfl⟩
  | kept he hnone =>
      have hb' := he.symm.trans hb
      rcases h.kept p n w hp hb' with ⟨x, hw, hserves, hpast⟩ | hleft
      · rcases hm.labour_or_stays hs hp hq w with ⟨m, f, g, x', y, hidle, hw', hy, hf, hl, hg⟩ | hstay
        · cases hw.symm.trans hw'
          cases hl with
          | bound | withheld | returned | posted => simp_all [WorkerPhase.serves, WorkerPhase.isPast]
          | @ran _ _ _ next =>
              refine .inl ⟨_, hy, ?_⟩
              cases next <;> simp_all [WorkerPhase.serves, WorkerPhase.isPast]
          | answered | failed => exact .inl ⟨_, hy, by simpa [WorkerPhase.serves] using hserves, rfl⟩
          | unbound =>
              obtain rfl : m = n := by simpa [WorkerPhase.serves] using hserves
              refine .inr (h.leaves hreach hs hstep (hact ▸ ⟨_, rfl⟩) hp hidle hw hf hb' ?_ hnone)
              rcases f.unbind_cases (p.workerName w) with ⟨-, -, hgone⟩ | ⟨hphase, -⟩
              · simp [binding?, hg, hgone] at hb
              · exact fun hend => hphase ⟨by simpa [binding?, hf] using hb', hend⟩
        · exact .inl ⟨x, (hstay x (WorkerPhase.isEngaged_of_serves hserves)).1.mpr hw, hserves, hpast⟩
      · exact .inr (hleft.step hstep hnone)

theorem Begins.traced (h : sys.Begins) : Traced [] sys := by
  have hnone (n : Nat) : sys.scheduler.binding? n = none := by simp [binding?, h.flights]
  refine ⟨⟨fun p w n a hp hw _ => ?_, fun n hrun => ?_⟩, fun n name hb => ?_, fun p n name _ hb => ?_, fun p n w _ hb => ?_⟩
  · rcases h.pool with hp' | ⟨name, settings, hp'⟩
    · cases hp.symm.trans hp'
    · cases hp.symm.trans hp'
      cases hw
  · simp [standing, h.flights] at hrun
  all_goals rw [hnone] at hb; cases hb

theorem Traced.step (h : Traced history sys) (hreach : Reachable history sys) (hs : sys.scheduler.Sane)
    (hstep : sys.step act = some (sys', events)) : Traced ({ act, events } :: history) sys' := by
  rcases step_cases hstep with ⟨rfl, rfl, rfl⟩ | ⟨a, loop, rfl, -, hm, -⟩
  · exact ⟨h.tied, fun n name hb => (h.newest n name hb).step rfl fun hp h0 => .inl ⟨hp, h0⟩, h.named,
      fun p n w hp hb => (h.kept p n w hp hb).imp_right (·.step hstep rfl)⟩
  · obtain ⟨p, hp⟩ := exists_pool hs.pooled
    obtain ⟨q, hq⟩ := exists_pool (hm.sane hs).pooled
    exact ⟨hm.tied hs h.tied, fun n name => h.move_newest hm hs hp hq, fun q n name hq => h.move_named hm hp hq,
      fun q n w hq => h.step_kept hreach hs hstep rfl hm hp hq⟩

theorem Reachable.traced (h : Reachable history sys) (hpool : sys.scheduler.isSynchronous = false) :
    Traced history sys :=
  h.sane_invariant (fun _ hb => hb.traced) (fun hreach hsane ih hs => ih.step hreach hsane hs) hpool

/-! ## What is left behind stays behind -/

/-- The flight stays bound to the worker that let its binding stand, until another one is bound. -/
theorem Run.abandoned {sys₀ : System} {earlier since : List Moment} {left : Moment} {refusal : Option IoError}
    (hrun : Run sys₀ (since ++ [left]) sys) (hreach : Reachable earlier sys₀) (hpass : sys₀.scheduler.PassesOver p n w)
    (hact : left.act = .thread (.advance (.worker w) refusal))
    (hnone : ∀ moment ∈ since, boundTo? n moment.events = none) (hq : sys.scheduler.pool = some q) :
    sys.scheduler.Abandoned q n w := by
  induction since generalizing sys q with
  | nil =>
      cases hrun with
      | @step _ _ act _ _ hrun hs =>
          cases hrun
          obtain rfl : act = _ := hact
          obtain ⟨_, -, hm, -⟩ := step_thread_cases hs
          exact hpass.abandoned (hreach.sane (by simp [isSynchronous, hpass.pool])) hm hq
  | cons moment since ih =>
      cases hrun with
      | @step _ mid _ _ _ hrun hs =>
          have hsane := (hreach.run hrun).sane ((step_synchronous hs).symm.trans (by simp [isSynchronous, hq]))
          obtain ⟨p', hp'⟩ := exists_pool hsane.pooled
          have habandoned := ih hrun (fun m hm => hnone m (List.mem_cons_of_mem _ hm)) hp'
          rcases step_cases hs with ⟨-, rfl, -⟩ | ⟨a, loop, -, -, hm, -⟩
          · cases hp'.symm.trans hq
            exact habandoned
          · exact habandoned.stays hm hsane hp' hq (hnone _ List.mem_cons_self)

theorem LeftBehind.abandoned (h : LeftBehind history sys n w) (hq : sys.scheduler.pool = some q) :
    sys.scheduler.Abandoned q n w := by
  obtain ⟨since, left, ran, bound, before, sys₀, p, -, -, -, hreach, hpass, ⟨refusal, hact⟩, hrun, hnone⟩ := h
  exact hrun.abandoned hreach hpass hact (fun moment hm => hnone moment (List.mem_append_left _ hm)) hq

/-- A flight is bound to workers of the pool only. The worker that it is bound to is between the hooks for it, or left
its binding behind, for a newer input queued the flight again before the worker could take the binding back. What is
left behind stays there: in particular a worker that is done with its hook is named if and only if it left its binding
behind. -/
theorem named_worker_serves_or_left (h : Reachable history sys) (hp : sys.scheduler.pool = some p) (n : Nat) :
    (∀ name, sys.scheduler.binding? n = some name → ∃ w, name = p.workerName w) ∧
    ∀ w, (sys.scheduler.binding? n = some (p.workerName w) →
        (∃ a, p.phase? w = some a ∧ a.serves n = true) ∨ LeftBehind history sys n w) ∧
      (LeftBehind history sys n w → sys.scheduler.binding? n = some (p.workerName w)) := by
  have htraced := h.traced (by simp [isSynchronous, hp])
  refine ⟨fun name => htraced.named p n name hp, fun w => ⟨fun hb => ?_, fun hleft => (hleft.abandoned hp).bound⟩⟩
  rcases htraced.kept p n w hp hb with ⟨a, hw, hserves, -⟩ | hleft
  · exact .inl ⟨a, hw, hserves⟩
  · exact .inr hleft

end System

end

namespace System

/-- The flight is queued again after its worker completed it and before the worker takes its binding back; then the
worker goes through its hook to the end. -/
def requeuedActs : List SystemAct :=
  [ .thread (.apply .owner ⟨0⟩ (.string "a")), .thread (.advance .owner none), .thread (.advance .owner none),
    .thread (.advance (.worker 1) none), .thread (.advance (.worker 1) none), .thread (.advance (.worker 1) none),
    .thread (.advance (.worker 1) none), .thread (.reply (.worker 1) (.value (some (.string "x")))),
    .thread (.advance (.worker 1) none),
    .thread (.apply .owner ⟨0⟩ (.string "b")), .thread (.advance .owner none), .thread (.advance .owner none),
    .thread (.advance .owner none),
    .thread (.advance (.worker 1) none), .thread (.advance (.worker 1) none), .thread (.advance (.worker 1) none) ]

theorem requeued_reachable : ∃ history sys p, Reachable history sys ∧ sys.scheduler.pool = some p ∧
    sys.scheduler.binding? 0 = some (p.workerName 1) ∧ p.phase? 1 = some (.leaving 0) := by
  obtain ⟨history, sys, p, hr, hp, hb, hw⟩ : ∃ history sys p, replay requeuedActs [] (small true) = some (history, sys) ∧
      sys.scheduler.pool = some p ∧ sys.scheduler.binding? 0 = some (p.workerName 1) ∧ p.phase? 1 = some (.leaving 0) :=
    ⟨_, _, _, rfl, rfl, rfl, rfl⟩
  exact ⟨history, sys, p, replay_reachable (small_reachable true) hr, hp, hb, hw⟩

/-- A worker has left its hook and its name stays behind at the flight. -/
theorem requeued_binding_left_behind : ∃ history sys p, Reachable history sys ∧ sys.scheduler.pool = some p ∧
    p.phase? 1 = some (.leaving 0) ∧ LeftBehind history sys 0 1 := by
  obtain ⟨history, sys, p, hreach, hp, hb, hw⟩ := requeued_reachable
  rcases ((named_worker_serves_or_left hreach hp 0).2 1).1 hb with ⟨a, ha, hserves⟩ | hleft
  · cases hw.symm.trans ha
    cases hserves
  · exact ⟨history, sys, p, hreach, hp, hw, hleft⟩

/-- A flight may name a worker that is not between the hooks for it. -/
theorem named_worker_may_be_gone : ¬ ∀ history sys p n w, Reachable history sys → sys.scheduler.pool = some p →
    sys.scheduler.binding? n = some (p.workerName w) → ∃ a, p.phase? w = some a ∧ a.serves n = true := by
  intro h
  obtain ⟨history, sys, p, hreach, hp, hb, hw⟩ := requeued_reachable
  obtain ⟨a, ha, hserves⟩ := h history sys p 0 1 hreach hp hb
  cases hw.symm.trans ha
  cases hserves

end System

end SingleFlight
