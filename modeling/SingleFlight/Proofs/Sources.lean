import SingleFlight.Proofs.Scheduler.Calls
import SingleFlight.Proofs.System

/-!
# Where inputs come from

With a pool, every input that a call carries, that waits in the loop or that a flight has was requested: what
holds of all requests that the scheduler accepts holds of it.
-/

namespace SingleFlight

variable [Payloads]

namespace Scheduler

variable {s s' u : Scheduler} {P : ActionId → Payload → Prop} {act : SchedulerAct} {c : Caller} {n m : Nat}
  {f g : Flight} {events : List SchedulerEvent}

/-- The input that a call carries for an action has the property. -/
def Carries (s : Scheduler) (P : ActionId → Payload → Prop) : Call → Prop
  | .posting id input => P id input
  | .applying id input => P id input
  | .offering n input => ∃ f, s.flights[n]? = some f ∧ P f.action input
  | _ => True

/-- The inputs of all calls and flights have the property. -/
structure Fed (s : Scheduler) (P : ActionId → Payload → Prop) : Prop where
  calls : ∀ c x, x ∈ s.callsOf c → s.Carries P x
  flights : ∀ (n : Nat) (f : Flight), s.flights[n]? = some f → P f.action f.input

/-- The request that a step accepts or takes from the loop has the property. -/
structure Brings (s : Scheduler) (P : ActionId → Payload → Prop) (act : SchedulerAct) : Prop where
  requested : ∀ c id input r, act = .apply c id input → s.registration? id = some r → r.accepts input = true → P id input
  received : ∀ id input, act = .run (.request id input) → P id input

/-! ## Calls -/

theorem Carries.mono {x : Call} (h : s.Carries P x)
    (hf : ∀ (n : Nat) (f : Flight), s.flights[n]? = some f → ∃ g, u.flights[n]? = some g ∧ g.action = f.action) :
    u.Carries P x := by
  cases x with
  | offering n input =>
      obtain ⟨f, hn, hP⟩ := h
      obtain ⟨g, hg, ha⟩ := hf n f hn
      exact ⟨g, hg, ha ▸ hP⟩
  | posting | applying => exact h
  | _ => trivial

theorem Arises.carries {x : Call} (h : Arises s act c x) (hs : s.Charted) (hb : s.Brings P act) (hf : s.Fed P) :
    s.Carries P x := by
  cases h with
  | requested hr ha | sent hr ha => exact hb.requested _ _ _ _ rfl hr ha
  | received => exact hb.received _ _ rfl
  | @found _ _ id input n _ hcs hn =>
      have hx : P id input := hf.calls c (.applying id input) (hcs ▸ List.mem_cons_self)
      obtain ⟨f, -, hfl, ha, -⟩ := hs.charted id n (mem_of_flightOf? hn)
      exact ⟨f, hfl, ha ▸ hx⟩
  | @ran _ _ _ _ _ _ _ next _ _ _ _ _ hx =>
      cases next with
      | stay | returned => obtain rfl := List.mem_singleton.mp hx; exact trivial
      | panicked => cases hx
  | _ => exact trivial

theorem Move.carries (hm : Move s act s' events) (h : s.Sane) (hb : s.Brings P act) (hf : s.Fed P) (c : Caller) (x : Call)
    (hx : x ∈ s'.callsOf c) : s'.Carries P x := by
  have hcarries : s.Carries P x := by
    rcases hm.arises hx with hx | ha
    · exact hf.calls c x hx
    · exact ha.carries h.charted hb hf
  refine hcarries.mono fun n f hn => ?_
  obtain ⟨g, hg, hp⟩ := hm.persists hn
  exact ⟨g, hg, hp.action⟩

/-! ## Flights -/

theorem flights_set {g : Flight} (hf : s.Fed P) (hm : s.flights[m]? = some f) (hg : P g.action g.input)
    (hu : u.flights = (s.setFlight m g).flights) (n : Nat) (k : Flight) (hk : u.flights[n]? = some k) :
    P k.action k.input := by
  rw [hu, flights_setFlight hm] at hk
  split at hk
  · cases hk; exact hg
  · exact hf.flights n k hk

theorem flights_append {r : Registration} {input : Payload} (hf : s.Fed P) (hP : P r.id input)
    (hu : u.flights = s.flights ++ [Flight.of r input]) (n : Nat) (k : Flight) (hk : u.flights[n]? = some k) :
    P k.action k.input := by
  rw [hu, flights_concat] at hk
  split at hk
  · cases hk; exact hP
  · exact hf.flights n k hk

theorem flights_modify (change : Flight → Flight) (hf : s.Fed P)
    (hc : ∀ f, (change f).action = f.action ∧ (change f).input = f.input)
    (hu : u.flights = s.flights.modify m change) (n : Nat) (k : Flight) (hk : u.flights[n]? = some k) :
    P k.action k.input := by
  rw [hu, List.getElem?_modify] at hk
  obtain ⟨f, hn, rfl⟩ := Option.map_eq_some_iff.mp hk
  have := hf.flights n f hn
  split
  · rw [(hc f).1, (hc f).2]; exact this
  · exact this

theorem Running.input {stage : RunStage} {next : RunStep} (h : Running s c n f stage g next events) :
    g.input = f.input := by
  cases h <;> rfl

theorem Labour.input {w : Nat} {name : String} {a b : WorkerPhase Nat WorkStage}
    (h : Labour s w name n f act a g b events) : g.input = f.input := by
  cases h with
  | ran hr => exact hr.input
  | failed => unfold Flight.fail; split <;> rfl
  | unbound => unfold Flight.unbind; split <;> rfl
  | _ => rfl

theorem Move.fed_flights (hm : Move s act s' events) (h : s.Sane) (hf : s.Fed P) :
    ∀ (n : Nat) (f : Flight), s'.flights[n]? = some f → P f.action f.input := by
  have hcarried {c : Caller} {x : Call} {rest : List Call} (hc : s.callsOf c = x :: rest) : s.Carries P x :=
    hf.calls c x (by rw [hc]; exact List.mem_cons_self)
  cases hm with
  | @launched _ _ id input r rest hc _ _ hr =>
      have hid : r.id = id := h.charted.numbered id.index r hr
      exact flights_append hf (hid ▸ hcarried hc) rfl
  | @superseded _ _ m input f rest hc hm =>
      obtain ⟨f', hf', hP⟩ := hcarried hc
      cases hm.symm.trans hf'
      exact flights_set (g := f.renewed input) hf hm hP rfl
  | rearmed hc hm =>
      obtain ⟨f', hf', hP⟩ := hcarried hc
      cases hm.symm.trans hf'
      exact flights_set hf hm hP rfl
  | @collected _ _ m f _ _ _ hm => exact flights_set (g := f.landed) hf hm (by exact hf.flights m f hm) rfl
  | inlined _ hs => cases h.pooled.symm.trans hs
  | ranInline hcs | took hcs => cases h.regular.orderly.suited h.pooled hcs
  | worked _ _ _ hm hl =>
      refine flights_set hf hm ?_ rfl
      rw [hl.persists.action, hl.input]
      exact hf.flights _ _ hm
  | warned | alarmed => exact flights_modify Flight.interrupt hf (fun _ => ⟨rfl, rfl⟩) rfl
  | gaveUp => exact flights_modify Flight.close hf (fun f => by exact ⟨rfl, rfl⟩) rfl
  | _ => exact hf.flights

theorem Move.fed (hm : Move s act s' events) (h : s.Sane) (hb : s.Brings P act) (hf : s.Fed P) : s'.Fed P :=
  ⟨hm.carries h hb hf, hm.fed_flights h hf⟩

theorem Move.fed_posted {id : ActionId} {input : Payload} (hm : Move s act s' events) (hf : s.Fed P)
    (he : .request id input ∈ events.filterMap SchedulerEvent.job?) : P id input := by
  obtain ⟨e, he, hjob⟩ := List.mem_filterMap.mp he
  have hnews : e.isNews = true := by
    cases e <;> first | rfl | cases hjob
  cases hm.news he hnews with
  | sent hc =>
      cases hjob
      exact hf.calls _ _ (by rw [hc]; exact List.mem_cons_self)
  | _ => cases hjob

end Scheduler

/-! ## Whole runs -/

namespace System

variable {sys sys' : System} {P : ActionId → Payload → Prop} {history : List Moment}

/-- All requests that were made with an input of the right type have the property. -/
def Requests (history : List Moment) (P : ActionId → Payload → Prop) (registrations : List Registration) : Prop :=
  ∀ moment ∈ history, ∀ c id input r, moment.act = .thread (.apply c id input) →
    registrations[id.index]? = some r → r.accepts input = true → P id input

theorem mem_queue_postAll {job : Posted} {l : OwnerLoop Posted} {jobs : List Posted}
    (h : job ∈ (l.postAll jobs).queue) : job ∈ l.queue ∨ job ∈ jobs := by
  induction jobs generalizing l with
  | nil => exact .inl h
  | cons j jobs ih =>
      rw [OwnerLoop.postAll_cons] at h
      rcases ih h with h | h
      · unfold OwnerLoop.post at h
        split at h
        · exact .inl h
        · rcases List.mem_append.mp h with h | h
          · exact .inl h
          · obtain rfl := List.mem_singleton.mp h; exact .inr List.mem_cons_self
      · exact .inr (List.mem_cons_of_mem _ h)

/-- What holds of all requests holds of all calls, flights and jobs. -/
theorem Reachable.fed (h : Reachable history sys) (hpool : sys.scheduler.isSynchronous = false)
    (hreq : Requests history P sys.scheduler.registrations) :
    sys.scheduler.Fed P ∧ ∀ id input, .request id input ∈ sys.loop.queue → P id input := by
  refine h.sane_invariant (P := fun history sys => Requests history P sys.scheduler.registrations →
    sys.scheduler.Fed P ∧ ∀ id input, .request id input ∈ sys.loop.queue → P id input) ?_ ?_ hpool hreq
  · intro sys hb _
    refine ⟨⟨fun c x hx => ?_, fun n f hf => ?_⟩, fun id input hj => ?_⟩
    · simp [Scheduler.callsOf, hb.calls] at hx
    · simp [hb.flights] at hf
    · rw [hb.loop] at hj; cases hj
  · intro history sys act sys' events _ hsane ih hs hreq
    rcases step_cases hs with ⟨rfl, rfl, rfl⟩ | ⟨a, loop, rfl, hloop, hm, hposted⟩
    · refine ⟨(ih fun m hm => hreq m (List.mem_cons_of_mem _ hm)).1, fun id input hj => ?_⟩
      cases hj
    · rw [hm.keeps.registrations] at hreq
      obtain ⟨hfed, hjobs⟩ := ih fun m hm => hreq m (List.mem_cons_of_mem _ hm)
      have hqueue := (OwnerLoop.yield_cases hloop).2
      have hb : sys.scheduler.Brings P a := by
        refine ⟨fun c id input r e hr ha => hreq _ List.mem_cons_self c id input r (congrArg _ e) hr ha, ?_⟩
        rintro id input rfl
        rcases hqueue with ⟨hno, -⟩ | ⟨job, e, hq⟩
        · exact absurd rfl (hno _)
        · cases e
          exact hjobs id input (hq ▸ List.mem_cons_self)
      refine ⟨hm.fed hsane hb hfed, fun id input hj => ?_⟩
      rw [hposted] at hj
      rcases mem_queue_postAll hj with hj | hj
      · refine hjobs id input ?_
        rcases hqueue with ⟨-, hq⟩ | ⟨job, -, hq⟩
        · exact hq ▸ hj
        · rw [hq]; exact List.mem_cons_of_mem _ hj
      · exact hm.fed_posted hfed hj

end System

end SingleFlight
