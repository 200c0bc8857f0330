import SingleFlight.Proofs.Scheduler.Latest
import SingleFlight.Proofs.Scheduler.Requests

/-!
# Requests in line

With a pool, the owner has at most one request in hand. It folds it into the latest flight of the action or starts
another one, and gets on to the next request only then.
-/

namespace SingleFlight

variable [Payloads]

/-- Two values that are the same, or that compare as equal. -/
def Payload.Same (a b : Payload) : Prop := a = b ∨ a.compare b = .ok true

/-- Comparing the value with another one does not panic. -/
def Payload.IsComparable (a : Payload) : Prop := ∀ b message, a.compare b ≠ .error message

/-- The input of a request of the action. -/
def Posted.asks? (id : ActionId) : Posted → Option Payload
  | .request action input => if action = id then some input else none
  | .handBack _ => none

/-- The input of a request of the action that the step takes from the loop. -/
def SchedulerAct.takes? (id : ActionId) : SchedulerAct → Option Payload
  | .run job => job.asks? id
  | _ => none

namespace Scheduler

variable {s s' : Scheduler} {act : SchedulerAct} {c : Caller} {n : Nat} {id : ActionId} {f g : Flight} {x : Call}
  {input : Payload} {rest cs cs' : List Call} {events : List SchedulerEvent}

/-- The input that the call has in hand for a flight of the action. -/
def asks? (s : Scheduler) (id : ActionId) : Call → Option Payload
  | .applying action input => if action = id then some input else none
  | .offering n input => if (s.flights[n]?).any (·.action = id) then some input else none
  | _ => none

/-- The input of the request of the action that the owner has in hand. -/
def asking (s : Scheduler) (id : ActionId) : Option Payload := (s.callsOf .owner).findSome? (s.asks? id)

/-- The latest flight of the action has this input, or one that is equal to it. -/
def Effective (s : Scheduler) (id : ActionId) (input : Payload) : Prop :=
  ∃ n f, s.IsLatest id n ∧ s.flights[n]? = some f ∧ f.input.Same input

/-- No request of the action was accepted. -/
def Quiet (id : ActionId) (events : List SchedulerEvent) : Prop := ∀ e ∈ events, e.accepted? id = none

theorem Quiet.of_aside (h : ∀ e ∈ events, e.isAside = true) : Quiet id events :=
  fun e he => (SchedulerEvent.aside (h e he) id).1

/-! ## What is in hand -/

theorem asks?_outside (h : x.isOutside = true) : s.asks? id x = none := by
  cases x <;> first | rfl | cases h

theorem findSome?_outside (h : ∀ x ∈ cs, x.isOutside = true) : cs.findSome? (s.asks? id) = none :=
  List.findSome?_eq_none_iff.mpr fun x hx => asks?_outside (h x hx)

theorem findSome?_head (h : ∀ y ∈ rest, y.isOutside = true) : (x :: rest).findSome? (s.asks? id) = s.asks? id x := by
  rw [List.findSome?_cons, findSome?_outside h]
  cases s.asks? id x <;> rfl

theorem Orderly.asking (h : s.Orderly) (hcs : s.callsOf .owner = x :: rest) (id : ActionId) :
    s.asking id = s.asks? id x := by
  rw [Scheduler.asking, hcs, findSome?_head (by simpa [hcs] using (h .owner).outside)]

theorem Orderly.asking_free (h : s.Orderly) (hfree : s.isFree .owner = true) : s.asking id = none :=
  findSome?_outside (h.outside hfree)

theorem Move.asks?_kept (hm : Move s act s' events) (h : s.Foremost) (hopen : s.isClosed = false)
    (hx : x ∈ s.callsOf .owner) : s'.asks? id x = s.asks? id x := by
  cases x with
  | offering n input =>
      obtain ⟨f, hf, -⟩ := h.offered hopen n input hx
      obtain ⟨g, hg, hp⟩ := hm.persists hf
      simp [asks?, hf, hg, hp.action]
  | _ => rfl

theorem Move.asking_kept (hm : Move s act s' events) (hs : s.Sane) (h : s.Foremost) (hopen : s.isClosed = false)
    (hcalls : s'.callsOf .owner = s.callsOf .owner) : s'.asking id = s.asking id := by
  have ho := hs.regular.orderly
  cases hcs : s.callsOf .owner with
  | nil => simp [asking, hcalls, hcs]
  | cons x rest =>
      rw [(hm.orderly ho).asking (hcalls.trans hcs), ho.asking hcs, hm.asks?_kept h hopen (hcs ▸ List.mem_cons_self)]

/-! ## Moves -/

/-- `Attending s id act events s'`: a move leaves the request of the action that the owner has in hand, or gives the
owner the one that the step takes from the loop, or it puts into effect the one that the owner had in hand. -/
inductive Attending (s : Scheduler) (id : ActionId) (act : SchedulerAct) (events : List SchedulerEvent)
    (s' : Scheduler) : Prop
  | waits : (s'.asking id).toList = (s.asking id).toList ++ (act.takes? id).toList → Quiet id events →
      Attending s id act events s'
  | serves {x : Payload} : s.asking id = some x → s'.asking id = none → act.takes? id = none →
      s'.Effective id x → Attending s id act events s'

theorem Turn.quiet (h : Turn s act c cs cs' events) : Quiet id events := by
  cases h <;> simp [Quiet, SchedulerEvent.accepted?]

theorem Turn.takes_nothing (h : Turn s act c cs cs' events) (hc : c ≠ .owner) : act.takes? id = none := by
  cases h <;> first | rfl | exact absurd rfl hc

theorem asking_setCalls : (s.setCalls .owner cs).asking id = cs.findSome? (s.asks? id) := by
  rw [asking, callsOf_setCalls_self]
  rfl

/-- What was offered to a flight is effective once it is the input of the flight. -/
theorem Foremost.effective (h : s.Foremost) (hm : Move s act s' events) (hs : s.Sane) (hopen : s.isClosed = false)
    (hcs : s.callsOf .owner = .offering n input :: rest) (hf : s.flights[n]? = some f) (hg : s'.flights[n]? = some g)
    (hsame : g.input.Same input) : s'.Effective f.action input := by
  obtain ⟨f', hf', hin⟩ := h.offered hopen n input (hcs ▸ List.mem_cons_self)
  cases hf.symm.trans hf'
  refine ⟨n, g, (h.airborne _ _ hin).move hm hs fun m kind y he => ?_, hg, hsame⟩
  obtain ⟨-, rest', hcs'⟩ := hm.looked_up hs he
  cases hcs.symm.trans hcs'

theorem Turn.attending (ht : Turn s act .owner cs cs' events) (hm : Move s act (s.setCalls .owner cs') events)
    (hcs : s.callsOf .owner = cs) (hs : s.Sane) (h : s.Foremost) (hopen : s.isClosed = false)
    (hact : ∀ input, act ≠ .apply .owner id input) (hreg : s.registration? id ≠ none)
    (hfed : s.Fed fun _ input => input.IsComparable) : Attending s id act events (s.setCalls .owner cs') := by
  have ho := hs.regular.orderly
  have hquiet : Quiet id events := ht.quiet
  have hrest {x : Call} {rest : List Call} (e : cs = x :: rest) : ∀ y ∈ rest, y.isOutside = true := by
    simpa [hcs, e] using (ho .owner).outside
  -- the innermost call goes on as `y`, or it is over
  have hnext {x y : Call} {rest : List Call} (e : cs = x :: rest) :
      (s.setCalls .owner (y :: rest)).asking id = s.asks? id y := by
    rw [asking_setCalls, findSome?_head (hrest e)]
  have hover {x : Call} {rest : List Call} (e : cs = x :: rest) : (s.setCalls .owner rest).asking id = none := by
    rw [asking_setCalls, findSome?_outside (hrest e)]
  have hnew (hf : s.isFree .owner = true) :
      s.asking id = none ∧ ∀ x, (s.setCalls .owner (x :: cs)).asking id = s.asks? id x :=
    ⟨ho.asking_free hf, fun x => by rw [asking_setCalls, findSome?_head (hcs ▸ ho.outside hf)]⟩
  cases ht with
  | @requested action input _ _ hf =>
      have hne : action ≠ id := by rintro rfl; exact hact input rfl
      exact .waits (by simp [(hnew hf).1, (hnew hf).2, asks?, hne, SchedulerAct.takes?]) hquiet
  | sent _ _ hne => exact absurd rfl hne
  | received hf | landed hf =>
      exact .waits (by simp [(hnew hf).1, (hnew hf).2, asks?, SchedulerAct.takes?, Posted.asks?]) hquiet
  | lapsed hc => cases hc.symm.trans hopen
  | @found _ _ action input n rest _ hn =>
      obtain ⟨f, -, hf, ha, -⟩ := hs.charted.charted action n (mem_of_flightOf? hn)
      exact .waits (by simp [ho.asking hcs, hnext rfl, asks?, hf, ha, SchedulerAct.takes?]) hquiet
  | @unknown _ _ action input rest _ _ hnone =>
      have hne : action ≠ id := by rintro rfl; exact hreg hnone
      exact .waits (by simp [ho.asking hcs, hover rfl, asks?, hne, SchedulerAct.takes?]) hquiet
  | incomparable hf _ hcmp => exact absurd hcmp (hfed.flights _ _ hf _ _)
  | @coalesced _ _ n input f rest hf hc hcmp =>
      by_cases e : f.action = id
      · subst e
        exact .serves (by simp [ho.asking hcs, asks?, hf]) (hover rfl) rfl
          (h.effective hm hs hopen hcs hf hf (.inr hcmp))
      · exact .waits (by simp [ho.asking hcs, hover rfl, asks?, hf, e, SchedulerAct.takes?]) hquiet
  | @rejected _ _ n input f rest hf hc =>
      obtain ⟨f', hf', hin⟩ := h.offered hopen n input (hcs ▸ List.mem_cons_self)
      cases hf.symm.trans hf'
      obtain ⟨g, -, hg, -, hne, -⟩ := hs.charted.charted _ n hin
      cases hf.symm.trans hg
      exact absurd hc hne
  | notified | answered => exact .waits (by simp [ho.asking hcs, hnext rfl, asks?, SchedulerAct.takes?]) hquiet
  | _ => exact .waits (by simp [ho.asking hcs, hover rfl, asks?, SchedulerAct.takes?]) hquiet

/-- An input that the flight takes over is effective. -/
theorem Foremost.attending (h : s.Foremost) (hm : Move s act s' events) (hs : s.Sane) (hopen : s.isClosed = false)
    (hcs : s.callsOf .owner = .offering n input :: rest) (hf : s.flights[n]? = some f) (hg : s'.flights[n]? = some g)
    (hinput : g.input = input) (hafter : s'.asking id = none) (ht : act.takes? id = none)
    (hquiet : f.action ≠ id → Quiet id events) : Attending s id act events s' := by
  have hbefore := hs.regular.orderly.asking hcs id
  by_cases e : f.action = id
  · exact .serves (by simp [hbefore, asks?, hf, e]) hafter ht (e ▸ h.effective hm hs hopen hcs hf hg (.inl hinput))
  · exact .waits (by simp [hbefore, hafter, asks?, hf, e, ht]) (hquiet e)

/-- With a pool, what a move of an open scheduler does to the request that the owner has in hand. -/
theorem Move.attending (hm : Move s act s' events) (hs : s.Sane) (h : s.Foremost) (hopen : s'.isClosed = false)
    (hact : ∀ input, act ≠ .apply .owner id input) (hreg : s.registration? id ≠ none)
    (hfed : s.Fed fun _ input => input.IsComparable) : Attending s id act events s' := by
  have ho := hs.regular.orderly
  have ho' := hm.orderly ho
  have hopened := hm.keeps.opened hopen
  have hlatest {n : Nat} {kind : ActionKind} {input : Payload} (he : .queued n id kind input ∈ events) :
      s'.IsLatest id n := hm.latest_launched hs he
  have hkept (hcalls : s'.callsOf .owner = s.callsOf .owner) (ht : act.takes? id = none) (hq : Quiet id events) :
      Attending s id act events s' :=
    .waits (by simp [hm.asking_kept hs h hopened hcalls, ht]) hq
  have hover {x : Call} {rest : List Call} (hcs : s.callsOf .owner = x :: rest) (hcs' : s'.callsOf .owner = rest) :
      s'.asking id = none :=
    findSome?_outside (hcs' ▸ by simpa [hcs] using (ho .owner).outside)
  cases hm with
  | @turned _ c cs _ ht =>
      by_cases hc : c = .owner
      · subst hc
        exact ht.attending (.turned ht) rfl hs h hopened hact hreg hfed
      · exact hkept (by rw [callsOf_setCalls, if_neg (Ne.symm hc)]) (ht.takes_nothing hc) ht.quiet
  | @launched c _ action input r rest hcs hopen hnone hr =>
      obtain rfl := ho.owner hs.pooled hcs (by simp [Call.suits])
      have hafter := ho'.asking (callsOf_setCalls_self _ _ _) id
      by_cases e : action = id
      · subst e
        exact .serves (by simp [ho.asking hcs, asks?] : s.asking action = some input) hafter rfl
          ⟨s.flights.length, Flight.of r input, hlatest List.mem_cons_self, by simp, .inl rfl⟩
      · exact .waits (by simp [ho.asking hcs, hafter, asks?, e, SchedulerAct.takes?])
          (by simp [Quiet, SchedulerEvent.accepted?, e])
  | @superseded c refusal n input f rest hcs hf hc hd hcmp =>
      obtain rfl := ho.owner hs.pooled hcs (by simp [Call.suits])
      have hg : (s.setFlight n (f.renewed input)).flights[n]? = some (f.renewed input) := by simp [flights_setFlight hf]
      exact h.attending (.superseded hcs hf hc hd hcmp) hs hopened hcs hf hg rfl (hover hcs (callsOf_setCalls_self _ _ _))
        rfl (by simp +contextual [Quiet, SchedulerEvent.accepted?])
  | @rearmed c refusal n input f rest hcs hf hd hcmp =>
      obtain rfl := ho.owner hs.pooled hcs (by simp [Call.suits])
      have hg := flights_setFlight hf { f.renewed input with output := none, phase := .queued } n
      rw [if_pos rfl] at hg
      exact h.attending (.rearmed hcs hf hd hcmp) hs hopened hcs hf hg rfl (ho'.asking (callsOf_setCalls_self _ _ _) id)
        rfl (by simp +contextual [Quiet, SchedulerEvent.accepted?])
  | submitted hcs =>
      obtain rfl := ho.owner hs.pooled hcs (by simp [Call.suits])
      exact .waits (by rw [ho.asking hcs, hover hcs (callsOf_setCalls_self _ _ _)]; rfl)
        (.of_aside (submission_aside _ _ _))
  | collected hcs =>
      obtain rfl := ho.owner hs.pooled hcs (by simp [Call.suits])
      have hafter := ho'.asking (callsOf_setCalls_self _ _ _) id
      exact .waits (by rw [ho.asking hcs, hafter]; rfl) (by simp [Quiet, SchedulerEvent.accepted?])
  | inlined _ hsync => cases hs.pooled.symm.trans hsync
  | ranInline hcs | took hcs => cases ho.suited hs.pooled hcs
  | worked _ _ _ _ hl => exact hkept rfl (by cases hl <;> rfl) (.of_aside hl.aside)
  | shut => cases hopen
  | idled hact =>
      refine hkept rfl ?_ (.of_aside (pooled_aside _))
      rcases hact with rfl | ⟨-, r, rfl⟩ <;> rfl
  | halted => exact hkept rfl rfl (.of_aside (pooled_aside _))
  | _ => exact hkept rfl rfl (.of_aside (by simp [SchedulerEvent.isAside]))

/-! ## What stays in effect -/

theorem Quiet.inputs (h : Quiet id events) (hm : Move s act s' events) (hf : s.flights[n]? = some f)
    (ha : f.action = id) : inputs n events = [] := by
  have haccepts {m : Nat} {g : Flight} (hg : s.flights[m]? = some g) (hne : g.action ≠ id) : m ≠ n := by
    rintro rfl
    cases hf.symm.trans hg
    exact hne ha
  rw [SingleFlight.inputs, List.filterMap_eq_nil_iff]
  intro e he
  have hnone := h e he
  cases e with
  | queued m action kind input =>
      cases hm.news he rfl with
      | queued =>
          have hlt := (List.getElem?_eq_some_iff.mp hf).1
          simp [SchedulerEvent.input?, Nat.ne_of_gt hlt]
  | superseded m action input generation =>
      cases hm.news he rfl with
      | superseded _ hg => simp [SchedulerEvent.input?, haccepts hg (by simpa [SchedulerEvent.accepted?] using hnone)]
  | rearmed m action input generation =>
      cases hm.news he rfl with
      | rearmed _ hg => simp [SchedulerEvent.input?, haccepts hg (by simpa [SchedulerEvent.accepted?] using hnone)]
  | _ => rfl

/-- An input stays in effect until another request of the action is accepted. -/
theorem Effective.move (h : s.Effective id input) (hm : Move s act s' events) (hs : s.Sane) (hquiet : Quiet id events) :
    s'.Effective id input := by
  obtain ⟨n, f, hlatest, hf, hsame⟩ := h
  obtain ⟨g, hg, -⟩ := hm.persists hf
  have hinputs : inputs n events = [] := by
    obtain ⟨f', hf', ha⟩ := hlatest.started
    cases hf.symm.trans hf'
    exact hquiet.inputs hm hf ha
  have hinput := (hm.course hs n).newest
  rw [hf, hg, hinputs] at hinput
  have hkept : g.input = f.input := Option.some.inj hinput
  refine ⟨n, g, hlatest.move hm hs fun m kind y he => ?_, hg, hkept ▸ hsame⟩
  have := hquiet _ he
  simp [SchedulerEvent.accepted?] at this

/-! ## Requests on their way -/

theorem Turn.posting (h : Turn s act c cs cs' events) (hx : .posting id input ∈ cs) :
    .posting id input ∈ cs' ∨ .posted c (.request id input) ∈ events := by
  cases h with
  | posted =>
      rcases List.mem_cons.mp hx with e | hx
      · cases e; exact .inr List.mem_cons_self
      · exact .inl hx
  | requested | sent | received | landed => exact .inl (List.mem_cons_of_mem _ hx)
  | _ => exact .inl (by simpa using hx)

/-- A request that a thread is about to post is posted by its next step. -/
theorem Move.posting {d : Caller} (hm : Move s act s' events) (hx : .posting id input ∈ s.callsOf d) :
    .posting id input ∈ s'.callsOf d ∨ .posted d (.request id input) ∈ events := by
  have hset {u : Scheduler} {c : Caller} {cs : List Call} (hu : u.calls = s.calls)
      (hcs : .posting id input ∈ s.callsOf c → .posting id input ∈ cs ∨ .posted c (.request id input) ∈ events) :
      .posting id input ∈ (u.setCalls c cs).callsOf d ∨ .posted d (.request id input) ∈ events := by
    rw [callsOf_setCalls]
    split
    · rename_i e; subst e; exact hcs hx
    · rw [callsOf_congr hu]; exact .inl hx
  cases hm with
  | turned ht => exact hset rfl fun hx => ht.posting hx
  | launched hcs | superseded hcs | rearmed hcs | submitted hcs | collected hcs | took hcs =>
      exact hset rfl fun hx => .inl (by simpa [hcs] using hx)
  | inlined | shut => exact hset rfl fun hx => .inl (List.mem_cons_of_mem _ hx)
  | ranInline hcs => exact hset rfl fun hx => .inl (List.mem_append_right _ (by simpa [hcs] using hx))
  | _ => exact .inl hx

theorem Move.posting_before {d : Caller} (hm : Move s act s' events) (hx : .posting id input ∈ s'.callsOf d) :
    .posting id input ∈ s.callsOf d ∨ act = .apply d id input := by
  rcases hm.arises hx with hx | ha
  · exact .inl hx
  · cases ha with
    | sent => exact .inr rfl
    | @ran _ _ _ _ _ _ _ next _ _ _ _ _ hx => cases next <;> simp [RunStep.calls] at hx

theorem Move.posted {d : Caller} (hm : Move s act s' events) (he : .posted d (.request id input) ∈ events) :
    .posting id input ∈ s.callsOf d := by
  cases hm.news he rfl with
  | sent hcs => exact hcs ▸ List.mem_cons_self

end Scheduler

end SingleFlight
