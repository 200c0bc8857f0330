import SingleFlight.Proofs.Unasked

/-!
# What was requested is told once

When every request of a scheduler with a pool has its flight and no other one follows, each of these actions has a
single flight with a single input. The scheduler inevitably comes to rest, and then the outcome of each input has gone
to its callback, once.
-/

namespace SingleFlight

open Scheduler

variable [Payloads]

/-- An outcome of the action goes to its callback, if there is one. -/
def SchedulerEvent.tells (id : ActionId) : SchedulerEvent → Bool
  | .notified _ _ action _ _ => action = id
  | _ => false

namespace System

variable {sys sys' : System} {act : SchedulerAct} {history : List Moment} {events : List SchedulerEvent} {n : Nat}
  {id : ActionId} {input : Payload} {entries : List (ActionId × Payload)} {f : Flight} {x y : List Moment × System}

/-! ## Tellings -/

/-- How often an outcome of the action went to its callback. -/
def tellings (id : ActionId) : List Moment → Nat
  | [] => 0
  | moment :: history => tellings id history + moment.events.countP (SchedulerEvent.tells id)

/-- If no other flight is of the action, the outcomes of the flight are those of the action. -/
theorem Reachable.tellings (h : Reachable history sys) (hpool : sys.scheduler.isSynchronous = false)
    (honly : ∀ (m : Nat) (f : Flight), sys.scheduler.flights[m]? = some f → (f.action = id ↔ m = n)) :
    System.tellings id history = notificationCount n history := by
  let Only (sys : System) : Prop :=
    ∀ (m : Nat) (f : Flight), sys.scheduler.flights[m]? = some f → (f.action = id ↔ m = n)
  refine h.sane_invariant (P := fun history sys => Only sys → System.tellings id history = notificationCount n history)
    (fun _ _ _ => rfl) ?_ hpool honly
  intro history sys act sys' events _ hs ih hstep honly
  rcases step_cases hstep with ⟨-, rfl, rfl⟩ | ⟨a, loop, rfl, -, hm, -⟩
  · exact ih honly
  · have honly' : Only sys := by
      intro m f hf
      obtain ⟨g, hg, hp⟩ := hm.persists hf
      rw [← hp.action]
      exact honly m g hg
    have hevents : events.countP (SchedulerEvent.tells id) = notifications n events := by
      refine List.countP_congr fun e he => ?_
      cases e with
      | notified c m action kind d =>
          cases hm.news he rfl with
          | notified _ hf hr =>
              have hid := hs.charted.numbered _ _ hr
              simp only [SchedulerEvent.tells, SchedulerEvent.notifies, decide_eq_true_eq, hid]
              exact honly' m _ hf
      | _ => rfl
    simp only [System.tellings, notificationCount, ih honly', hevents]

/-! ## Outcomes -/

theorem Steady.fewInputs (h : Steady history sys) : FewInputs history := by
  rintro later since call before w n id input token rfl - -
  have hcount := h.counted n
  have hone : (sys.scheduler.flights[n]?).toList.length ≤ 1 := by cases sys.scheduler.flights[n]? <;> simp
  rw [inputCount_append, inputCount_append] at hcount
  have hsize : 1 < UInt64.size := by decide
  omega

/-- What goes to a callback is the outcome of an invocation with the only input of the flight. -/
theorem Steady.notified {c : Caller} {kind : ActionKind} {d : Delivery} (h : Steady history sys)
    (hm : Move sys.scheduler act sys'.scheduler events) (he : .notified c n id kind d ∈ events) :
    c = .owner ∧ ∃ f r o, sys.scheduler.flights[n]? = some f ∧ f.action = id ∧ sys.scheduler.registration? id = some r ∧
      d = r.deliver o ∧ newest n history = some f.input ∧ FromNewest r history n o := by
  have htracks := h.reached.tracks h.pooled h.copyable h.fewInputs
  obtain ⟨hc, f, r, o, hf, hid, hr, hd, hright⟩ := htracks.notified h.sane hm he
  refine ⟨hc, f, r, o, hf, hid, hr, hd, ?_, ?_⟩
  · rw [h.reached.newest_eq h.pooled, hf]; rfl
  · rcases hright with hnewest | ⟨-, hlimit⟩
    · exact hnewest
    · have hone := h.single.attempts n f hf
      simp only [Flight.attemptLimit, UInt32.size] at hlimit
      omega

/-! ## Coming to rest -/

/-- A step without a request, with the history that it makes longer. -/
def GoesOn (x y : List Moment × System) : Prop :=
  ∃ act events, act.isUnasked = true ∧ x.2.step (.thread act) = some (y.2, events) ∧
    y.1 = { act := .thread act, events } :: x.1

/-- All that was requested of a scheduler that is left in peace has flights. -/
structure Settling (entries : List (ActionId × Payload)) (history : List Moment) (sys : System) : Prop where
  steady : Steady history sys
  ample : sys.scheduler.Ample
  served : sys.scheduler.served = entries
  asked : sys.scheduler.asked = []

theorem Steady.goes_on (h : Steady x.1 x.2) : x.2.Quiescent ∨ ∃ y, GoesOn x y := by
  by_cases hq : x.2.Quiescent
  · exact .inl hq
  · refine .inr ?_
    rcases h.gets_on hq with ⟨act, sys', events, hplain, hstep⟩ | ⟨w, hend⟩
    · exact ⟨(_, sys'), act, events, SchedulerAct.isUnasked_of_isPlain hplain, hstep, rfl⟩
    · obtain ⟨s', events, hreply⟩ := hend (.value none)
      obtain ⟨sys', hstep, -⟩ := step_thread (by simp) hreply
      exact ⟨(_, sys'), _, events, rfl, hstep, rfl⟩

theorem Settling.step (h : Settling entries x.1 x.2) (hxy : GoesOn x y) :
    Settling entries y.1 y.2 ∧ y.2.Closer x.2 := by
  obtain ⟨act, events, hact, hstep, hy⟩ := hxy
  have hgentle := SchedulerAct.gentle_of_isUnasked hact x.2.scheduler
  refine ⟨?_, h.steady.closer hgentle (SchedulerAct.not_apply_of_isUnasked hact) hstep⟩
  rw [hy]
  obtain ⟨loop, hyield, hm, -⟩ := step_thread_cases hstep
  refine ⟨h.steady.step hgentle (h.steady.roomy h.ample) hstep, hm.ample h.ample, ?_, ?_⟩
  all_goals
    rcases h.steady.requests hact (OwnerLoop.mem_of_yield hyield) hm with ⟨hserved, hasked⟩ | ⟨e, hasked, -⟩
  · exact hserved.trans h.served
  · cases h.asked.symm.trans hasked
  · exact hasked.trans h.asked
  · cases h.asked.symm.trans hasked

theorem Settling.flight (h : Settling entries history sys) (hnodup : (entries.map Prod.fst).Nodup)
    (he : (id, input) ∈ entries) : ∃ n f, sys.scheduler.flights[n]? = some f ∧ f.action = id ∧ f.input = input ∧
      ∀ (m : Nat) (g : Flight), sys.scheduler.flights[m]? = some g → (g.action = id ↔ m = n) := by
  rw [← h.served] at he hnodup
  obtain ⟨n, f, hf, e⟩ := mem_served.mp he
  cases e
  refine ⟨n, f, hf, rfl, rfl, fun m g hg => ⟨fun hact => ?_, ?_⟩⟩
  · have hlt : m < (sys.scheduler.served.map Prod.fst).length := by
      rw [Scheduler.served, List.length_map, List.length_map]
      exact (List.getElem?_eq_some_iff.mp hg).1
    refine (List.getElem?_inj hlt hnodup).mp ?_
    simp [getElem?_served, hg, hf, hact]
  · rintro rfl
    cases hf.symm.trans hg; rfl

/-- No outcome of an action goes to its callback twice, and at rest those of the actions that were requested have gone
there. -/
theorem Settling.told (h : Settling entries history sys) (hnodup : (entries.map Prod.fst).Nodup) (id : ActionId) :
    System.tellings id history ≤ 1 ∧
      (sys.Quiescent → System.tellings id history = if id ∈ entries.map Prod.fst then 1 else 0) := by
  have hreached := h.steady.reached
  have hdelivering := hreached.delivering h.steady.pooled
  by_cases hid : id ∈ entries.map Prod.fst
  · obtain ⟨⟨_, input⟩, he, rfl⟩ := List.mem_map.mp hid
    obtain ⟨n, f, hf, -, -, honly⟩ := h.flight hnodup he
    have htold := hdelivering.told n
    have honce := hdelivering.once n
    rw [hreached.tellings h.steady.pooled honly]
    refine ⟨by omega, fun hq => ?_⟩
    have hlanded := hdelivering.landed h.steady.isOpen n (by simp [standing, hf, h.steady.landed hq hf])
    rw [hq.calls, List.countP_nil] at htold
    rw [if_pos hid]
    omega
  · -- no flight is of the action, nor has one this number
    have hfresh : sys.scheduler.flights[sys.scheduler.flights.length]? = none := by simp
    have hnone : System.tellings id history = notificationCount sys.scheduler.flights.length history := by
      refine hreached.tellings h.steady.pooled fun m f hf => ⟨fun hact => absurd ?_ hid, ?_⟩
      · rw [← h.served]
        exact List.mem_map.mpr ⟨_, mem_served.mpr ⟨m, f, hf, rfl⟩, hact⟩
      · rintro rfl
        cases hfresh.symm.trans hf
    have htold := hdelivering.told sys.scheduler.flights.length
    have hpending := hdelivering.pending sys.scheduler.flights.length (by simp [standing])
    rw [hnone, if_neg hid]
    exact ⟨by omega, fun _ => by omega⟩

end System

end SingleFlight
