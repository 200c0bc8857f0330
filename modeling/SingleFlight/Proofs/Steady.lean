import SingleFlight.Proofs.OpenRequests
import SingleFlight.Proofs.PoolSteps
import SingleFlight.Proofs.Scheduler.Single

/-!
# Schedulers that are left in peace

The host of a scheduler with a pool is gentle if it requests only actions that have no flight in the air, does not
close the scheduler and lets every thread be created. Then every flight has a single input, the pool takes every
flight as long as its queue has room, and only the owner has calls under way.
-/

namespace SingleFlight

open Scheduler

variable [Payloads]

/-- The call serves a request of the owner for an action that had no flight in the air. -/
def Call.serves : Call → Bool
  | .applying _ _ => true
  | .submitting _ => true
  | .finishing _ => true
  | .delivering _ _ => true
  | .calling _ => true
  | _ => false

namespace Scheduler

variable {s s' : Scheduler} {p q : Pool Nat WorkStage} {act : SchedulerAct} {c : Caller} {n : Nat} {id : ActionId}
  {f : Flight} {x : Call} {events : List SchedulerEvent}

theorem refused_iff : Refused events ↔ ∃ n error, .pool (.refused n error) ∈ events := by
  refine ⟨?_, fun ⟨n, error, he⟩ => ⟨_, he, rfl⟩⟩
  rintro ⟨e, he, hrefusal⟩
  cases e with
  | pool pooled =>
      cases pooled with
      | refused n error => exact ⟨n, error, he⟩
      | _ => cases hrefusal
  | _ => cases hrefusal

theorem refusal?_eq_none {pooled : List (PoolEvent Nat)} {more : List SchedulerEvent}
    (h : ¬ Refused (pooled.map .pool ++ more)) : PoolEvent.refusal? pooled = none := by
  refine Classical.byContradiction fun hne => h ?_
  obtain ⟨task, error, hmem⟩ := PoolEvent.refused_of_refusal hne
  exact ⟨_, List.mem_append_left _ (List.mem_map_of_mem hmem), rfl⟩

theorem posted_of_job {job : Posted} (h : job ∈ events.filterMap SchedulerEvent.job?) : ∃ c, .posted c job ∈ events := by
  obtain ⟨e, he, hjob⟩ := List.mem_filterMap.mp h
  cases e with
  | posted c job' => cases hjob; exact ⟨c, he⟩
  | _ => cases hjob

/-- What a gentle host and its machine do. -/
def Gentle (s : Scheduler) : SchedulerAct → Prop
  | .apply c id input => c = .owner ∧ s.flightOf? id = none ∧ ∃ copy, input.copy = .ok copy
  | .close _ => False
  | .advance _ refusal => refusal = none
  | _ => True

/-- A flight that is about to be submitted finds a place in the queue. -/
def Roomy (s : Scheduler) : Prop :=
  ∀ p n rest, s.pool = some p → s.callsOf .owner = .submitting n :: rest → p.queue.length < p.channel.capacity

theorem Move.unflown {input : Payload} {rest : List Call} (hm : Move s act s' events) (hs : s.Sane)
    (hcs : s'.callsOf .owner = .applying id input :: rest) (hnone : s.flightOf? id = none) : s'.flightOf? id = none := by
  cases hm with
  | @launched c _ _ _ _ _ hcs' =>
      obtain rfl := hs.regular.orderly.owner hs.pooled hcs' (by simp [Call.suits])
      rw [callsOf_setCalls_self] at hcs
      cases hcs
  | collected =>
      simp only [flightOf?, inFlight_setCalls, Option.map_eq_none_iff, List.find?_eq_none] at hnone ⊢
      intro e he
      exact hnone e (List.mem_of_mem_filter he)
  | shut => rfl
  | _ => exact hnone

end Scheduler

namespace System

variable {sys sys' : System} {act : SchedulerAct} {history : List Moment} {events : List SchedulerEvent} {n : Nat}

/-- What holds of a scheduler with a pool that is left in peace. -/
structure Steady (history : List Moment) (sys : System) : Prop where
  reached : Reachable history sys
  pooled : sys.scheduler.isSynchronous = false
  isOpen : sys.scheduler.isClosed = false
  loop : sys.loop.isClosed = false
  copyable : Copyable history
  unrefused : NeverRefused history
  single : sys.scheduler.Single
  counted : ∀ n : Nat, inputCount n history = (sys.scheduler.flights[n]?).toList.length
  others : ∀ c, c ≠ .owner → sys.scheduler.callsOf c = []
  serving : ∀ x ∈ sys.scheduler.callsOf .owner, x.serves = true
  fresh : ∀ id input, .applying id input ∈ sys.scheduler.callsOf .owner → sys.scheduler.flightOf? id = none
  finishing : ∀ n, .finishing n ∈ sys.scheduler.callsOf .owner → ∃ f, sys.scheduler.flights[n]? = some f
  jobs : ∀ job ∈ sys.loop.queue, ∃ n f, job = .handBack n ∧ sys.scheduler.flights[n]? = some f

theorem Begins.steady (hb : sys.Begins) (hreach : Reachable [] sys) (hpool : sys.scheduler.isSynchronous = false) :
    Steady [] sys := by
  have hnone (n : Nat) : sys.scheduler.flights[n]? = none := by simp [hb.flights]
  have hno {n : Nat} {f : Flight} (hf : sys.scheduler.flights[n]? = some f) : False := by
    cases (hnone n).symm.trans hf
  refine ⟨hreach, hpool, hb.isClosed, by rw [hb.loop], by simp [Copyable], by simp [NeverRefused],
    ⟨fun n f hf => (hno hf).elim, fun n f hf => (hno hf).elim, fun n f hf => (hno hf).elim, fun p w a hp hw => ?_⟩,
    fun n => by rw [hnone]; rfl, fun c _ => hb.callsOf c, by simp [hb.callsOf], by simp [hb.callsOf], by simp [hb.callsOf],
    by simp [hb.loop]⟩
  obtain ⟨name, settings, rfl⟩ := hb.pool_new hp
  simp [Pool.phase?, Pool.create] at hw

theorem Steady.sane (h : Steady history sys) : sys.scheduler.Sane := h.reached.sane h.pooled

theorem Steady.not_stopping (h : Steady history sys) {p : Pool Nat WorkStage} (hp : sys.scheduler.pool = some p) :
    p.isStopping = false :=
  Bool.eq_false_iff.mpr fun hst => by cases (h.sane.regular.stopping p hp hst).symm.trans h.isOpen

theorem Steady.not_closing (h : Steady history sys) {k : Closing} : sys.scheduler.closing ≠ some k := fun hk => by
  cases (h.sane.regular.closing (by simp [hk])).symm.trans h.isOpen

theorem Steady.caller (h : Steady history sys) {c : Caller} {x : Call} {rest : List Call}
    (hcs : sys.scheduler.callsOf c = x :: rest) : c = .owner ∧ x.serves = true := by
  by_cases e : c = .owner
  · subst e; exact ⟨rfl, h.serving x (hcs ▸ List.mem_cons_self)⟩
  · cases (h.others c e).symm.trans hcs

theorem Steady.accepts {id : ActionId} {input : Payload} {r : Registration} (h : Steady history sys)
    (hcs : sys.scheduler.callsOf .owner = []) (hr : sys.scheduler.registration? id = some r)
    (hacc : r.accepts input = true) :
    sys.step (.thread (.apply .owner id input))
      = some ({ sys with scheduler := sys.scheduler.setCalls .owner [.applying id input] }, []) := by
  have hfree : sys.scheduler.isFree .owner = true := by simp [isFree, hcs]
  have happly : sys.scheduler.apply .owner id input = (sys.scheduler.setCalls .owner [.applying id input], []) := by
    simp [Scheduler.apply, hr, hacc, h.isOpen, h.pooled, push, hcs]
  exact step_jobless (by simp) (by simp [Scheduler.step, hfree, happly]) rfl

/-! ## A step of a gentle host -/

section
variable (h : Steady history sys) (hgentle : sys.scheduler.Gentle act)

include h

theorem Steady.unrenewed (hm : Move sys.scheduler act sys'.scheduler events) : sys.scheduler.Unrenewed events := by
  intro n f hf
  refine List.filterMap_eq_nil_iff.mpr fun e he => ?_
  cases e with
  | queued m id kind input =>
      cases hm.news he rfl with
      | queued => simp only [SchedulerEvent.input?, ite_eq_right_iff]; rintro rfl; simp at hf
  | superseded m id input generation =>
      cases hm.news he rfl with
      | superseded hcs => cases (h.caller hcs).2
  | rearmed m id input generation =>
      cases hm.news he rfl with
      | rearmed hcs => cases (h.caller hcs).2
  | _ => rfl

include hgentle

theorem Steady.stays_open (hm : Move sys.scheduler act sys'.scheduler events) : sys'.scheduler.isClosed = false := by
  refine Bool.eq_false_iff.mpr fun hc => ?_
  rcases hm.isClosed_iff.mp hc with hc | ⟨c, rfl⟩
  · cases hc.symm.trans h.isOpen
  · exact hgentle

theorem Steady.not_refused (hm : Move sys.scheduler act sys'.scheduler events) (hroom : sys.scheduler.Roomy) :
    ¬ Refused events := by
  intro hrefused
  obtain ⟨n, error, he⟩ := refused_iff.mp hrefused
  obtain ⟨c, refusal, rest, f, p, q, pooled, rfl, hcs, -, hp, ha, hr, -, -⟩ := hm.refused he
  obtain rfl := (h.caller hcs).1
  obtain rfl : refusal = none := hgentle
  have hst := h.not_stopping hp
  have hopen := (h.reached.attended h.isOpen h.unrefused p hp).isOpen
  have hplace := hroom p n rest hp hcs
  cases ha with
  | stopped hc =>
      rcases hc with hc | hc
      · cases hc.symm.trans hst
      · cases hc.symm.trans hopen
  | full _ _ _ hfull => omega
  | _ => simp at hr

theorem Steady.others_step (hm : Move sys.scheduler act sys'.scheduler events) (c : Caller) (hc : c ≠ .owner) :
    sys'.scheduler.callsOf c = [] := by
  refine List.eq_nil_iff_forall_not_mem.mpr fun x hx => ?_
  rcases hm.arises hx with hx | ha
  · rw [h.others c hc] at hx; cases hx
  · cases ha with
    | requested | received | landed => exact hc rfl
    | sent | inlined => exact hc hgentle.1
    | found hcs | launched hcs | rearmed hcs | collected hcs | ran hcs | took hcs | notified hcs | answered hcs =>
        exact hc (h.caller hcs).1
    | shut => exact hgentle

theorem Steady.serving_step (hm : Move sys.scheduler act sys'.scheduler events)
    (hloop : ∀ job, act = .run job → job ∈ sys.loop.queue) (x : Call) (hx : x ∈ sys'.scheduler.callsOf .owner) :
    x.serves = true ∧ (∀ id input, x = .applying id input → sys'.scheduler.flightOf? id = none) ∧
      ∀ n, x = .finishing n → ∃ f, sys'.scheduler.flights[n]? = some f := by
  have hs := h.sane
  have hfinishing {n : Nat} (hn : ∃ f, sys.scheduler.flights[n]? = some f) : ∃ f, sys'.scheduler.flights[n]? = some f := by
    obtain ⟨f, hf⟩ := hn
    obtain ⟨g, hg, -⟩ := hm.persists hf
    exact ⟨g, hg⟩
  -- a call that is not at the host is the innermost one
  have hunflown {id : ActionId} {input : Payload} (hx : .applying id input ∈ sys'.scheduler.callsOf .owner)
      (hnone : sys.scheduler.flightOf? id = none) : sys'.scheduler.flightOf? id = none := by
    cases hcs : sys'.scheduler.callsOf .owner with
    | nil => rw [hcs] at hx; cases hx
    | cons y rest =>
        rw [hcs] at hx
        rcases List.mem_cons.mp hx with rfl | hx
        · exact hm.unflown hs hcs hnone
        · have := ((hm.sane hs).regular.orderly .owner).outside _ (by rw [hcs]; exact hx)
          cases this
  rcases hm.arises hx with hx' | ha
  · refine ⟨h.serving x hx', ?_, ?_⟩
    · rintro id input rfl; exact hunflown hx (h.fresh id input hx')
    · rintro n rfl; exact hfinishing (h.finishing n hx')
  · cases ha with
    | requested =>
        refine ⟨rfl, ?_, by simp⟩
        rintro _ _ ⟨⟩
        exact hunflown hx hgentle.2.1
    | sent =>
        have := ((hm.sane hs).regular.orderly .owner).suits _ hx
        simp [Call.suits] at this
    | received =>
        obtain ⟨_, _, e, -⟩ := h.jobs _ (hloop _ rfl)
        cases e
    | landed =>
        obtain ⟨m, f, e, hf⟩ := h.jobs _ (hloop _ rfl)
        cases e
        refine ⟨rfl, by simp, ?_⟩
        rintro _ ⟨⟩
        exact hfinishing ⟨f, hf⟩
    | @found _ _ _ _ _ _ hcs hsome =>
        cases (h.fresh _ _ (hcs ▸ List.mem_cons_self)).symm.trans hsome
    | launched | collected | notified => exact ⟨rfl, by simp, by simp⟩
    | rearmed hcs | ran hcs | took hcs | answered hcs => cases (h.caller hcs).2
    | inlined hsync => cases hsync.symm.trans h.pooled
    | shut => exact hgentle.elim

omit hgentle in
theorem Steady.counted_step (hm : Move sys.scheduler act sys'.scheduler events) (n : Nat) :
    inputCount n ({ act := .thread act, events } :: history) = (sys'.scheduler.flights[n]?).toList.length := by
  have hcourse := hm.course h.sane n
  show inputCount n history + (inputs n events).length = _
  rw [h.counted n]
  cases hf : sys.scheduler.flights[n]? with
  | some f =>
      obtain ⟨g, hg, -⟩ := hm.persists hf
      rw [hg, h.unrenewed hm n f hf]
      rfl
  | none =>
      rw [hf] at hcourse
      generalize sys'.scheduler.flights[n]? = after at hcourse ⊢
      cases hcourse with
      | absent hin => rw [hin]; rfl
      | started he => subst he; simp [inputs, SingleFlight.SchedulerEvent.input?]

/-- The steps of a gentle host leave a scheduler in peace. -/
theorem Steady.step (hroom : sys.scheduler.Roomy) (hstep : sys.step (.thread act) = some (sys', events)) :
    Steady ({ act := .thread act, events } :: history) sys' := by
  obtain ⟨loop, hyield, hm, hposted⟩ := step_thread_cases hstep
  have hs := h.sane
  obtain ⟨hclosed, hqueue⟩ := OwnerLoop.yield_cases hyield
  have hmem {job : Posted} (hj : job ∈ loop.queue) : job ∈ sys.loop.queue := by
    rcases hqueue with ⟨-, e⟩ | ⟨_, -, e⟩
    · exact e ▸ hj
    · rw [e]; exact List.mem_cons_of_mem _ hj
  have hserving := h.serving_step hgentle hm (OwnerLoop.mem_of_yield hyield)
  have hopen := h.stays_open hgentle hm
  have hfed := (h.reached.fed h.pooled h.copyable.usable).1
  refine ⟨h.reached.step hstep, (step_synchronous hstep).trans h.pooled, hopen, ?_, ?_, ?_,
    hm.single hs h.single hopen (h.unrenewed hm) hfed, h.counted_step hm, h.others_step hgentle hm,
    fun x hx => (hserving x hx).1, fun id input hx => (hserving _ hx).2.1 id input rfl,
        fun n hx => (hserving _ hx).2.2 n rfl, ?_⟩
  · rw [hposted, OwnerLoop.isClosed_postAll]; exact hclosed.trans h.loop
  · intro m hm c id input hact
    rcases List.mem_cons.mp hm with rfl | hm
    · cases hact; exact hgentle.2.2
    · exact h.copyable m hm c id input hact
  · intro m hmem
    rcases List.mem_cons.mp hmem with rfl | hmem
    · exact h.not_refused hgentle hm hroom
    · exact h.unrefused m hmem
  · intro job hj
    have honward {n : Nat} {f : Flight} (hf : sys.scheduler.flights[n]? = some f) :
        ∃ m g, Posted.handBack n = .handBack m ∧ sys'.scheduler.flights[m]? = some g := by
      obtain ⟨g, hg, -⟩ := hm.persists hf
      exact ⟨n, g, rfl, hg⟩
    rw [hposted] at hj
    rcases mem_queue_postAll hj with hj | hj
    · obtain ⟨n, f, rfl, hf⟩ := h.jobs job (hmem hj)
      exact honward hf
    · obtain ⟨c, he⟩ := posted_of_job hj
      cases hm.news he rfl with
      | sent hcs => cases (h.caller hcs).2
      | handedBack _ hp hw =>
          obtain ⟨f, hf⟩ := h.single.firstRun _ _ _ hp hw
          exact honward hf

end

end System

end SingleFlight
