import SingleFlight.Proofs.Settling

/-!
# Building with requests

The builder of a scheduler requests the inputs that it was given one after the other, before anybody else has the
scheduler, while the workers already get on. If the actions are different and the inputs of the right types, no request
panics, and in the end each of the actions has its flight in the air.
-/

namespace SingleFlight

open Scheduler

variable [Payloads]

/-- The call serves a request that has no outcome yet. -/
def Call.isEarly : Call → Bool
  | .applying _ _ => true
  | .submitting _ => true
  | _ => false

/-- A scheduler that is being built: what is still to be requested, what happened, and the scheduler with its loop. -/
structure Construction where
  rest : List (ActionId × Payload)
  history : List Moment := []
  sys : System

/-- A step while a scheduler is built. The builder, whose thread is the owner, makes its next request when the last one
has returned; otherwise threads get on. The owner runs no jobs, and nobody else makes a request. -/
inductive Construction.Next : Construction → Construction → Prop
  | request {id input rest history sys sys' events} : sys.scheduler.callsOf .owner = [] →
      sys.step (.thread (.apply .owner id input)) = some (sys', events) →
      Next ⟨(id, input) :: rest, history, sys⟩
        ⟨rest, { act := .thread (.apply .owner id input), events } :: history, sys'⟩
  | goesOn {rest history sys act sys' events} : act.isUnasked = true → (∀ job, act ≠ .run job) →
      sys.step (.thread act) = some (sys', events) →
      Next ⟨rest, history, sys⟩ ⟨rest, { act := .thread act, events } :: history, sys'⟩

/-- All requests have returned. -/
def Construction.IsDone (c : Construction) : Prop := c.rest = [] ∧ c.sys.scheduler.callsOf .owner = []

namespace System

variable {sys sys' : System} {act : SchedulerAct} {history : List Moment} {events : List SchedulerEvent}

section
variable (h : Steady history sys) (hact : act.isUnasked = true) (hrun : ∀ job, act ≠ .run job)
  (hearly : ∀ x ∈ sys.scheduler.callsOf .owner, x.isEarly = true)
  (hm : Move sys.scheduler act sys'.scheduler events)

include h hact hrun hearly hm

/-- As long as the owner runs no job, its calls do not get to an outcome. -/
theorem Steady.early_step : ∀ x ∈ sys'.scheduler.callsOf .owner, x.isEarly = true := by
  intro x hx
  rcases hm.arises hx with hx | ha
  · exact hearly x hx
  · cases ha with
    | requested | sent | inlined | shut => cases hact
    | received | landed => exact absurd rfl (hrun _)
    | found hcs hsome => cases (h.fresh _ _ (hcs ▸ List.mem_cons_self)).symm.trans hsome
    | launched => rfl
    | collected hcs | notified hcs => cases hearly _ (hcs ▸ List.mem_cons_self)
    | rearmed hcs | ran hcs | took hcs | answered hcs => cases (h.caller hcs).2

theorem Steady.no_panic (hroom : sys.scheduler.Roomy) (c : Caller) (message : String) :
    .panicked c message ∉ events := by
  intro he
  have hfed := (h.reached.fed h.pooled h.copyable.usable).1
  have hrefused := h.not_refused (SchedulerAct.gentle_of_isUnasked hact _) hm hroom
  generalize sys'.scheduler = s' at hm
  cases hm with
  | unknown | mismatched => cases hact
  | @turned _ c cs _ ht =>
      generalize hcs : sys.scheduler.callsOf c = before at ht
      cases ht with
      | @unknown _ _ id given _ _ _ hnone =>
          obtain ⟨-, r, hr, -⟩ := hfed.calls c (.applying id given) (hcs ▸ List.mem_cons_self)
          cases hnone.symm.trans hr
      | incomparable => cases (h.caller hcs).2
      | panicked =>
          obtain rfl := (h.caller hcs).1
          cases hearly _ (hcs ▸ List.mem_cons_self)
      | _ => simp at he
  | @submitted _ _ _ _ _ _ pooled _ hcs =>
      have hnone := refusal?_eq_none hrefused
      simp [hnone, submissionAnswer] at he
  | ranInline hcs => cases (h.caller hcs).2
  | worked _ hp hw hf hl => cases hl.toil h.sane h.single h.isOpen hfed hp hw hf <;> simp at he
  | idled _ _ _ _ hev => rcases hev with rfl | rfl <;> simp at he
  | halted hcs | abandoned hcs => cases (h.caller hcs).2
  | _ => simp at he

end

/-! ## Steps of a construction -/

/-- What holds while a scheduler is built with requests for the entries. -/
structure Constructing (entries : List (ActionId × Payload)) (c : Construction) : Prop where
  steady : Steady c.history c.sys
  ample : c.sys.scheduler.Ample
  early : ∀ x ∈ c.sys.scheduler.callsOf .owner, x.isEarly = true
  requested : c.sys.scheduler.served ++ c.sys.scheduler.asked ++ c.rest = entries
  usable : ∀ e ∈ c.rest, Usable c.sys.scheduler.registrations e.1 e.2
  undelivered : ∀ n, deliveryCount n c.history = 0
  calm : ∀ m ∈ c.history, ∀ caller message, .panicked caller message ∉ m.events

variable {entries rest : List (ActionId × Payload)} {id : ActionId} {input : Payload} {c c' : Construction}

theorem Constructing.fresh (h : Constructing entries ⟨(id, input) :: rest, history, sys⟩)
    (hnodup : (entries.map Prod.fst).Nodup) : sys.scheduler.flightOf? id = none := by
  refine Option.eq_none_iff_forall_ne_some.mpr fun n hn => ?_
  obtain ⟨f, -, hf, hact, -⟩ := h.steady.sane.charted.charted id n (mem_of_flightOf? hn)
  rw [← h.requested, List.map_append, List.map_append, List.nodup_append] at hnodup
  have hserved : id ∈ sys.scheduler.served.map Prod.fst :=
    List.mem_map.mpr ⟨_, mem_served.mpr ⟨n, f, hf, rfl⟩, hact⟩
  exact hnodup.2.2 id (List.mem_append_left _ hserved) id (by simp) rfl

theorem Constructing.request (h : Constructing entries ⟨(id, input) :: rest, history, sys⟩)
    (hnodup : (entries.map Prod.fst).Nodup) (hcs : sys.scheduler.callsOf .owner = [])
    (hstep : sys.step (.thread (.apply .owner id input)) = some (sys', events)) :
    Constructing entries ⟨rest, { act := .thread (.apply .owner id input), events } :: history, sys'⟩ := by
  obtain ⟨hcopy, r, hr, hacc⟩ := h.usable _ List.mem_cons_self
  have hgentle : sys.scheduler.Gentle (.apply .owner id input) := ⟨rfl, h.fresh hnodup, hcopy⟩
  have hsteady := h.steady.step hgentle (h.steady.roomy h.ample) hstep
  cases (h.steady.accepts hcs hr hacc).symm.trans hstep
  -- the entry goes from the end of the rest to the front of what was asked
  have hasked : sys.scheduler.asked = [] := by rw [asked, hcs]; rfl
  have hrequested := h.requested
  rw [hasked, List.append_nil] at hrequested
  refine ⟨hsteady, h.ample, ?_, ?_, fun e he => h.usable e (List.mem_cons_of_mem _ he), h.undelivered, ?_⟩
  · intro x hx
    rw [callsOf_setCalls_self] at hx
    obtain rfl := List.mem_singleton.mp hx
    rfl
  · rw [asked_setCalls, ← hrequested]
    exact List.append_assoc ..
  · intro m hm
    rcases List.mem_cons.mp hm with rfl | hm
    · simp
    · exact h.calm m hm

theorem Constructing.goesOn (h : Constructing entries ⟨rest, history, sys⟩) (hact : act.isUnasked = true)
    (hrun : ∀ job, act ≠ .run job) (hstep : sys.step (.thread act) = some (sys', events)) :
    Constructing entries ⟨rest, { act := .thread act, events } :: history, sys'⟩ := by
  obtain ⟨loop, hyield, hm, -⟩ := step_thread_cases hstep
  have hroom := h.steady.roomy h.ample
  have haloof : sys.scheduler.Aloof := fun n hx => by cases h.early _ hx
  refine ⟨h.steady.step (SchedulerAct.gentle_of_isUnasked hact _) hroom hstep, hm.ample h.ample,
    h.steady.early_step hact hrun h.early hm, ?_, ?_, fun n => ?_, fun m hmem => ?_⟩
  · have hrequested := h.requested
    rcases h.steady.requests hact (OwnerLoop.mem_of_yield hyield) hm with ⟨hserved, hasked⟩ | ⟨e, hasked, hserved⟩
    · rw [hserved, hasked]; exact hrequested
    · rw [hserved, ← hrequested, hasked]; simp
  · rw [hm.keeps.registrations]; exact h.usable
  · rw [deliveryCount, h.undelivered n, hm.undelivered h.steady.sane haloof n]
  · rcases List.mem_cons.mp hmem with rfl | hmem
    · exact h.steady.no_panic hact hrun h.early hm hroom
    · exact h.calm m hmem

theorem Constructing.next (h : Constructing entries c) (hnodup : (entries.map Prod.fst).Nodup) (hnext : c.Next c') :
    Constructing entries c' := by
  cases hnext with
  | request hcs hstep => exact h.request hnodup hcs hstep
  | goesOn hact hrun hstep => exact h.goesOn hact hrun hstep

/-! ## Whole constructions -/

/-- Fewer requests are left, or as many and the scheduler is closer to its rest. -/
def Nearer : Construction → Construction → Prop := InvImage (Prod.Lex (· < ·) Closer) fun c => (c.rest.length, c.sys)

theorem nearer_wf : WellFounded Nearer := InvImage.wf _ (Prod.lex Nat.lt_wfRel ⟨Closer, closer_wf⟩).wf

theorem Constructing.nearer (h : Constructing entries c) (hnext : c.Next c') : Nearer c' c := by
  cases hnext with
  | request => exact .left _ _ (Nat.lt_succ_self _)
  | @goesOn _ _ sys _ _ _ hact _ hstep =>
      have hgentle := SchedulerAct.gentle_of_isUnasked hact sys.scheduler
      exact .right _ (h.steady.closer hgentle (SchedulerAct.not_apply_of_isUnasked hact) hstep)

theorem Constructing.goes_on (h : Constructing entries c) : c.IsDone ∨ ∃ c', c.Next c' := by
  obtain ⟨rest, history, sys⟩ := c
  cases hcs : sys.scheduler.callsOf .owner with
  | cons x calls =>
      obtain ⟨act, hplain, hrun, s', events, hs⟩ := h.steady.owner_gets_on hcs
      obtain ⟨sys', hstep, -⟩ := step_thread hrun hs
      exact .inr ⟨_, .goesOn (SchedulerAct.isUnasked_of_isPlain hplain) hrun hstep⟩
  | nil =>
      cases rest with
      | nil => exact .inl ⟨rfl, hcs⟩
      | cons e rest =>
          obtain ⟨-, r, hr, hacc⟩ := h.usable e List.mem_cons_self
          exact .inr ⟨_, .request hcs (h.steady.accepts hcs hr hacc)⟩

/-- A construction inevitably comes to its end. -/
theorem Constructing.ends (h : Constructing entries c) (hnodup : (entries.map Prod.fst).Nodup) :
    Inevitably Construction.Next Construction.IsDone c :=
  .of_closer (Q := Constructing entries) nearer_wf (fun _ h => h.goes_on)
    (fun _ _ h hnext => ⟨h.next hnodup hnext, h.nearer hnext⟩) h

/-! ## The scheduler that was built -/

theorem Constructing.settling (h : Constructing entries c) (hdone : c.IsDone) : Settling entries c.history c.sys := by
  have hasked : c.sys.scheduler.asked = [] := by rw [asked, hdone.2]; rfl
  have hrequested := h.requested
  rw [hasked, hdone.1, List.append_nil, List.append_nil] at hrequested
  exact ⟨h.steady, h.ample, hrequested, hasked⟩

/-- Every action that was requested has a flight in the air, with the input of the request. -/
theorem Constructing.pendingInput (h : Constructing entries c) (hdone : c.IsDone) (hnodup : (entries.map Prod.fst).Nodup)
    (id : ActionId) : c.sys.scheduler.pendingInput id = Snapshot.lookup entries id := by
  have hsettling := h.settling hdone
  have hcharted := h.steady.sane.charted
  cases hlookup : Snapshot.lookup entries id with
  | some input =>
      obtain ⟨n, f, hf, rfl, rfl, -⟩ := hsettling.flight hnodup ((Snapshot.lookup_eq_some hnodup).mp hlookup)
      refine (hcharted.pendingInput h.steady.isOpen hf fun hclosed => ?_).2
      have hdelivering := h.steady.reached.delivering h.steady.pooled
      have hlanded := hdelivering.landed h.steady.isOpen n (by simp [standing, hf, hclosed])
      cases (h.undelivered n).symm.trans hlanded
  | none =>
      refine Option.eq_none_iff_forall_ne_some.mpr fun input hinput => ?_
      obtain ⟨n, hn, -⟩ := Option.bind_eq_some_iff.mp hinput
      obtain ⟨f, -, hf, hact, -⟩ := hcharted.charted id n (mem_of_flightOf? hn)
      have hserved : id ∈ entries.map Prod.fst := by
        rw [← hsettling.served]
        exact List.mem_map.mpr ⟨_, mem_served.mpr ⟨n, f, hf, rfl⟩, hact⟩
      rw [← Snapshot.lookup_isSome, hlookup] at hserved
      cases hserved

end System

end SingleFlight
