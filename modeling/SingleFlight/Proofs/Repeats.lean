import SingleFlight.Proofs.Origins
import SingleFlight.Proofs.Scheduler.Beside

/-!
# Repeated requests

With a pool, a request whose input equals the pending one of its action has no effect: without its steps the run is
still one, and it comes to the same state.
-/

namespace SingleFlight

namespace OwnerLoop

theorem postAll_open {α : Type} (queue jobs : List α) :
    ({ queue } : OwnerLoop α).postAll jobs = { queue := queue ++ jobs } := by
  have hqueue := queue_postAll jobs { queue } rfl
  have hclosed := isClosed_postAll jobs { queue }
  generalize ({ queue } : OwnerLoop α).postAll jobs = l at hqueue hclosed
  cases l
  simp_all

end OwnerLoop

section

variable [Payloads]

/-- How far a request is. -/
inductive RequestStage
  /-- A thread is about to post it. -/
  | posting (c : Caller)
  /-- It waits in the loop behind so many jobs. -/
  | queued (ahead : Nat)
  /-- The owner is about to look up the flight of the action. -/
  | applying
  /-- The owner is about to offer the input to the flight. -/
  | offering
  | answered

/-- How far a request is after a step that is not its own; `none` if the step is its own or gives it up. -/
def RequestStage.aside : RequestStage → SystemAct → Option RequestStage
  | posting c, .thread act => if act.actor = c then none else some (posting c)
  | queued 0, .thread (.run _) => none
  | queued (ahead + 1), .thread (.run _) => some (queued ahead)
  | queued _, .dropLoop => none
  | applying, .thread act => if act.actor = .owner then none else some applying
  | offering, .thread act => if act.actor = .owner then none else some offering
  | stage, _ => some stage

namespace System

open Scheduler

/-- The events of a history without those of requests that come to nothing. -/
def effects (history : List Moment) : List SchedulerEvent :=
  history.flatMap fun moment => moment.events.filter SchedulerEvent.hasEffect

/-- The owner has taken up a request of the action with the input before, and since then the action got no other input
and no outcome of it was taken for its delivery. -/
def WasTakenUp (start : System) (id : ActionId) (x : Payload) (history : List Moment) (sys : System) : Prop :=
  ∃ recent moment earlier before after, history = recent ++ moment :: earlier ∧ Run start earlier before ∧
    before.step moment.act = some (after, moment.events) ∧ before.scheduler.asking id = some x ∧
    (∃ e ∈ moment.events, e.processes id = true) ∧ Run after recent sys ∧
    ∀ m ∈ recent, ∀ e ∈ m.events, e.accepted? id = none ∧ e.lands id = false

/-- The pending input of the action is equal to the given one, or the given one is an equal of itself and was taken up
before. -/
def Repeats (start : System) (id : ActionId) (x : Payload) (history : List Moment) (sys : System) : Prop :=
  sys.scheduler.Awaits id x ∨
    x.compare x = .ok true ∧ sys.scheduler.isClosed = false ∧ WasTakenUp start id x history sys

/-- `Request start id x stage history others sys`: the history of a run with a request of the action, which has come to the
stage and repeats another one when it is looked up, and the history without the steps of the request. -/
inductive Request (start : System) (id : ActionId) (x : Payload) :
    RequestStage → List Moment → List Moment → System → Prop
  /-- The owner makes the request. -/
  | made {history sys sys'} : Run start history sys → sys.step (.thread (.apply .owner id x)) = some (sys', []) →
      Request start id x .applying ({ act := .thread (.apply .owner id x), events := [] } :: history) history sys'
  /-- Another thread makes the request. -/
  | sent {history sys sys' c} : Run start history sys → c ≠ .owner →
      sys.step (.thread (.apply c id x)) = some (sys', []) →
      Request start id x (.posting c) ({ act := .thread (.apply c id x), events := [] } :: history) history sys'
  | posted {history others sys sys' c refusal events} : Request start id x (.posting c) history others sys →
      sys.loop.isClosed = false → sys.step (.thread (.advance c refusal)) = some (sys', events) →
      Request start id x (.queued sys.loop.queue.length) ({ act := .thread (.advance c refusal), events } :: history)
        others sys'
  | received {history others sys sys' events} : Request start id x (.queued 0) history others sys →
      sys.step (.thread (.run (.request id x))) = some (sys', events) →
      Request start id x .applying ({ act := .thread (.run (.request id x)), events } :: history) others sys'
  | found {history others sys sys' refusal events} : Request start id x .applying history others sys →
      Repeats start id x history sys → sys.step (.thread (.advance .owner refusal)) = some (sys', events) →
      Request start id x .offering ({ act := .thread (.advance .owner refusal), events } :: history) others sys'
  /-- The scheduler was closed meanwhile. -/
  | lapsed {history others sys sys' refusal events} : Request start id x .applying history others sys →
      sys.scheduler.isClosed = true → sys.step (.thread (.advance .owner refusal)) = some (sys', events) →
      Request start id x .answered ({ act := .thread (.advance .owner refusal), events } :: history) others sys'
  | answered {history others sys sys' refusal events} : Request start id x .offering history others sys →
      sys.step (.thread (.advance .owner refusal)) = some (sys', events) →
      Request start id x .answered ({ act := .thread (.advance .owner refusal), events } :: history) others sys'
  /-- A step that is not one of the request. -/
  | aside {stage next history others sys act sys' events} : Request start id x stage history others sys →
      stage.aside act = some next → sys.step act = some (sys', events) →
      Request start id x next ({ act, events } :: history) ({ act, events } :: others) sys'

/-- `Without id x stage sys sys'`: without a request that is at the stage, `sys` would be `sys'`. -/
inductive Without (id : ActionId) (x : Payload) : RequestStage → System → System → Prop
  | posting {c sys sys'} : Beside c [.posting id x] sys.scheduler sys'.scheduler → sys'.loop = sys.loop →
      Without id x (.posting c) sys sys'
  | queued {front back ahead sys sys'} : front.length = ahead → Beside .owner [] sys.scheduler sys'.scheduler →
      sys.loop = { queue := front ++ .request id x :: back } → sys'.loop = { queue := front ++ back } →
      Without id x (.queued ahead) sys sys'
  | applying {sys sys'} : Beside .owner [.applying id x] sys.scheduler sys'.scheduler → sys'.loop = sys.loop →
      Without id x .applying sys sys'
  | offering {n f sys sys'} : Beside .owner [.offering n x] sys.scheduler sys'.scheduler → sys'.loop = sys.loop →
      sys.scheduler.flights[n]? = some f → f.input.compare x = .ok true → Without id x .offering sys sys'
  | answered {sys sys'} : Beside .owner [] sys.scheduler sys'.scheduler → sys'.loop = sys.loop →
      Without id x .answered sys sys'

variable {start sys sys' t : System} {history others : List Moment} {act : SystemAct} {a : SchedulerAct} {id : ActionId}
  {x : Payload} {stage next : RequestStage} {c : Caller} {more : List Call} {refusal : Option IoError}
  {events : List SchedulerEvent}

theorem Request.run (h : Request start id x stage history others sys) : Run start history sys := by
  induction h with
  | made hrun hs | sent hrun _ hs => exact hrun.step hs
  | posted _ _ hs ih | received _ hs ih | found _ _ hs ih | lapsed _ _ hs ih | answered _ hs ih | aside _ _ hs ih =>
      exact ih.step hs

/-! ## What a repeated request meets -/

theorem WasTakenUp.awaits (h : WasTakenUp start id x history sys) (hstart : start.IsOpened)
    (hpool : start.scheduler.isSynchronous = false) (hopen : sys.scheduler.isClosed = false)
    (hrefl : x.compare x = .ok true) : sys.scheduler.Awaits id x := by
  obtain ⟨recent, moment, earlier, before, after, rfl, hearlier, hs, hasking, hproc, hrecent, hquiet⟩ := h
  have hbefore := (hearlier.reachable hstart).sane (hearlier.synchronous.trans hpool)
  induction hrecent with
  | start =>
      rcases step_cases hs with ⟨-, -, he⟩ | ⟨a, loop, -, -, hm, -⟩
      · obtain ⟨e, hmem, -⟩ := hproc
        rw [he] at hmem
        cases hmem
      · exact hm.takes_up hbefore hopen hasking hproc hrefl
  | @step recent mid act sys' events hrun hs' ih =>
      have hlate : Run start (recent ++ moment :: earlier) mid := (hearlier.step hs).trans hrun
      rcases step_cases hs' with ⟨-, rfl, -⟩ | ⟨a, loop, -, -, hm, -⟩
      · exact ih hopen fun m hm => hquiet m (List.mem_cons_of_mem _ hm)
      · have hawaits := ih (hm.keeps.opened hopen) fun m hm => hquiet m (List.mem_cons_of_mem _ hm)
        have hsane := (hlate.reachable hstart).sane (hlate.synchronous.trans hpool)
        have hnow := hquiet _ List.mem_cons_self
        exact hawaits.move hm hsane hopen (fun e he => (hnow e he).1) fun e he => (hnow e he).2

theorem Repeats.awaits (h : Repeats start id x history sys) (hstart : start.IsOpened)
    (hpool : start.scheduler.isSynchronous = false) : sys.scheduler.Awaits id x := by
  rcases h with h | ⟨hrefl, hopen, h⟩
  · exact h
  · exact h.awaits hstart hpool hopen hrefl

/-! ## Side by side -/

theorem Without.rest (h : Without id x stage sys sys') : sys'.scheduler = sys.scheduler.withCalls sys'.scheduler.calls := by
  cases h with
  | posting hb | queued _ hb | applying hb | offering hb | answered hb => exact hb.rest

/-- With the same loop, other threads take the same steps. -/
theorem step_beside (hb : Beside c more sys.scheduler sys'.scheduler) (hloop : sys'.loop = sys.loop)
    (hact : a.actor ≠ c ∨ more = []) (hs : sys.step (.thread a) = some (t, events)) :
    ∃ t', sys'.step (.thread a) = some (t', events) ∧ Beside c more t.scheduler t'.scheduler ∧ t'.loop = t.loop := by
  obtain ⟨loop, hy, hs, hpost⟩ := step_yields hs
  obtain ⟨s', hs', hb'⟩ := hb.step hact hs
  exact ⟨_, step_yielded (hloop ▸ hy) hs', hb', hpost.symm⟩

/-- While the request waits, the loop gives the jobs before it and gets others behind it. -/
theorem step_queued {front back : List Posted} (hb : Beside .owner [] sys.scheduler sys'.scheduler)
    (hloop : sys.loop = { queue := front ++ .request id x :: back }) (hloop' : sys'.loop = { queue := front ++ back })
    (hstage : (RequestStage.queued front.length).aside (.thread a) = some next)
    (hs : sys.step (.thread a) = some (t, events)) :
    ∃ t', sys'.step (.thread a) = some (t', events) ∧ Without id x next t t' := by
  obtain ⟨loop, hy, hs, hpost⟩ := step_yields hs
  obtain ⟨s', hs', hb'⟩ := hb.step (.inr rfl) hs
  have hqueued {front : List Posted} (hstep : sys'.loop.yield a = some { queue := front ++ back })
      (hloop : loop = { queue := front ++ .request id x :: back }) :
      ∃ t', sys'.step (.thread a) = some (t', events) ∧ Without id x (.queued front.length) t t' := by
    have hloops : t.loop = { queue := front ++ .request id x :: (back ++ events.filterMap SchedulerEvent.job?) } := by
      rw [hpost, hloop, OwnerLoop.postAll_open, List.append_assoc, List.cons_append]
    exact ⟨_, step_yielded hstep hs', .queued rfl hb' hloops (by rw [OwnerLoop.postAll_open, List.append_assoc])⟩
  by_cases hrun : ∃ job, a = .run job
  · obtain ⟨job, rfl⟩ := hrun
    cases front with
    | nil => cases hstage
    | cons oldest front =>
        cases hstage
        rw [hloop] at hy
        simp only [OwnerLoop.yield, OwnerLoop.take?, List.cons_append, Option.bind_some] at hy
        split at hy
        · rename_i hjob
          cases hy
          exact hqueued (by simp [hloop', OwnerLoop.yield, OwnerLoop.take?, hjob]) rfl
        · cases hy
  · have hact : ∀ job, a ≠ .run job := fun job e => hrun ⟨job, e⟩
    obtain rfl : .queued front.length = next := by
      cases a with
      | run job => exact absurd rfl (hact job)
      | _ => cases hlen : front.length <;> simpa [RequestStage.aside, hlen] using hstage
    rw [OwnerLoop.yield_of_not_run hact] at hy
    refine hqueued ?_ ((Option.some.inj hy).symm.trans hloop)
    rw [OwnerLoop.yield_of_not_run hact, hloop']

/-- A step that is not one of the request is taken without the request as well. -/
theorem Without.aside (h : Without id x stage sys sys') (hsane : sys.scheduler.Sane) (hstage : stage.aside act = some next)
    (hs : sys.step act = some (t, events)) : ∃ t', sys'.step act = some (t', events) ∧ Without id x next t t' := by
  cases act with
  | dropLoop =>
      cases hs
      refine ⟨{ sys' with loop := sys'.loop.drop }, rfl, ?_⟩
      cases h with
      | posting hb => cases hstage; exact .posting hb rfl
      | @queued _ _ ahead => cases ahead <;> cases hstage
      | applying hb => cases hstage; exact .applying hb rfl
      | offering hb _ hf hx => cases hstage; exact .offering hb rfl hf hx
      | answered hb => cases hstage; exact .answered hb rfl
  | thread a =>
      cases h with
      | posting hb hloop =>
          simp only [RequestStage.aside, Option.ite_none_left_eq_some, Option.some.injEq] at hstage
          obtain ⟨hact, rfl⟩ := hstage
          obtain ⟨t', hs', hb', hloop'⟩ := step_beside hb hloop (.inl hact) hs
          exact ⟨t', hs', .posting hb' hloop'⟩
      | queued hlen hb hloop hloop' =>
          subst hlen
          exact step_queued hb hloop hloop' hstage hs
      | applying hb hloop =>
          simp only [RequestStage.aside, Option.ite_none_left_eq_some, Option.some.injEq] at hstage
          obtain ⟨hact, rfl⟩ := hstage
          obtain ⟨t', hs', hb', hloop'⟩ := step_beside hb hloop (.inl hact) hs
          exact ⟨t', hs', .applying hb' hloop'⟩
      | offering hb hloop hf hx =>
          simp only [RequestStage.aside, Option.ite_none_left_eq_some, Option.some.injEq] at hstage
          obtain ⟨hact, rfl⟩ := hstage
          obtain ⟨t', hs', hb', hloop'⟩ := step_beside hb hloop (.inl hact) hs
          obtain ⟨-, -, hm, -⟩ := step_thread_cases hs
          obtain ⟨g, hg, hinput⟩ := hm.input_aside hsane hact hf
          exact ⟨t', hs', .offering hb' hloop' hg (hinput ▸ hx)⟩
      | answered hb hloop =>
          cases hstage
          obtain ⟨t', hs', hb', hloop'⟩ := step_beside hb hloop (.inr rfl) hs
          exact ⟨t', hs', .answered hb' hloop'⟩

/-! ## The steps of the request -/

theorem Without.made (hpool : sys.scheduler.isSynchronous = false)
    (hs : sys.step (.thread (.apply .owner id x)) = some (t, [])) : Without id x .applying t sys := by
  obtain ⟨loop, hy, hstep, hpost⟩ := step_yields hs
  cases hy
  refine .applying ?_ hpost.symm
  rw [step_apply hpool hstep, if_pos rfl]
  exact (Beside.refl .owner sys.scheduler).turn [.applying id x]

theorem Without.sent (hpool : sys.scheduler.isSynchronous = false) (hc : c ≠ .owner)
    (hs : sys.step (.thread (.apply c id x)) = some (t, [])) : Without id x (.posting c) t sys := by
  obtain ⟨loop, hy, hstep, hpost⟩ := step_yields hs
  cases hy
  refine .posting ?_ hpost.symm
  rw [step_apply hpool hstep, if_neg hc]
  exact (Beside.refl c sys.scheduler).turn [.posting id x]

theorem Without.posted (h : Without id x (.posting c) sys sys') (hopen : sys.loop.isClosed = false)
    (hs : sys.step (.thread (.advance c refusal)) = some (t, events)) :
    Without id x (.queued sys.loop.queue.length) t sys' ∧ events.filter SchedulerEvent.hasEffect = [] := by
  cases h with
  | posting hb hloop =>
      cases hs.symm.trans (step_yielded rfl (step_posting hb.own))
      have hqueue : sys.loop = { queue := sys.loop.queue } := by rw [← hopen]
      have hposted : sys.loop.post (.request id x) = { queue := sys.loop.queue ++ [.request id x] } := by
        rw [OwnerLoop.post, hopen]; rfl
      refine ⟨.queued rfl ((hb.turn []).anyone .owner) hposted ?_, rfl⟩
      rw [hloop, List.append_nil, ← hqueue]

theorem Without.received (h : Without id x (.queued 0) sys sys')
    (hs : sys.step (.thread (.run (.request id x))) = some (t, events)) :
    Without id x .applying t sys' ∧ events.filter SchedulerEvent.hasEffect = [] := by
  obtain ⟨loop, hy, hstep, hpost⟩ := step_yields hs
  cases h with
  | queued hlen hb hloop hloop' =>
      obtain rfl := List.length_eq_zero_iff.mp hlen
      obtain ⟨hcalls, rfl⟩ := step_received hstep
      have htaken : loop = sys'.loop := by
        simpa [hloop, hloop', OwnerLoop.yield, OwnerLoop.take?, eq_comm] using hy
      refine ⟨.applying ?_ (htaken.symm.trans hpost.symm), rfl⟩
      rw [hcalls, hb.own]
      exact hb.turn [.applying id x]

theorem Without.found (h : Without id x .applying sys sys') (hsane : sys.scheduler.Sane) (hx : sys.scheduler.Awaits id x)
    (hs : sys.step (.thread (.advance .owner refusal)) = some (t, events)) :
    Without id x .offering t sys' ∧ events.filter SchedulerEvent.hasEffect = [] := by
  cases h with
  | applying hb hloop =>
      obtain ⟨n, f, hf, hequal, hstep⟩ := step_awaited hsane hb.own hx
      cases hs.symm.trans (step_yielded rfl hstep)
      exact ⟨.offering (hb.turn [.offering n x]) hloop hf hequal, rfl⟩

theorem Without.lapsed (h : Without id x .applying sys sys') (hclosed : sys.scheduler.isClosed = true)
    (hs : sys.step (.thread (.advance .owner refusal)) = some (t, events)) :
    Without id x .answered t sys' ∧ events.filter SchedulerEvent.hasEffect = [] := by
  cases h with
  | applying hb hloop =>
      cases hs.symm.trans (step_yielded rfl (step_lapsed hb.own hclosed))
      exact ⟨.answered (hb.turn []) hloop, rfl⟩

theorem Without.offered (h : Without id x .offering sys sys')
    (hs : sys.step (.thread (.advance .owner refusal)) = some (t, events)) :
    Without id x .answered t sys' ∧ events.filter SchedulerEvent.hasEffect = [] := by
  cases h with
  | offering hb hloop hf hx =>
      obtain ⟨given, hsilent, hjobs, hstep⟩ := step_equal hb.own hf hx
      cases hs.symm.trans (step_yielded rfl hstep)
      refine ⟨.answered (hb.turn []) ?_, hsilent⟩
      rw [hloop, hjobs]
      rfl

/-! ## Whole runs -/

theorem effects_cons (moment : Moment) (history : List Moment) :
    effects (moment :: history) = moment.events.filter SchedulerEvent.hasEffect ++ effects history :=
  List.flatMap_cons

theorem Request.without (h : Request start id x stage history others sys) (hstart : start.IsOpened)
    (hpool : start.scheduler.isSynchronous = false) :
    ∃ sys', Run start others sys' ∧ effects others = effects history ∧ Without id x stage sys sys' := by
  have hsane {history : List Moment} {sys : System} (hrun : Run start history sys) : sys.scheduler.Sane :=
    (hrun.reachable hstart).sane (hrun.synchronous.trans hpool)
  -- a step of the request leaves the others where they are
  have hown {stage next : RequestStage} {history others : List Moment} {sys t : System} {act : SystemAct}
      {events : List SchedulerEvent}
      (ih : ∃ sys', Run start others sys' ∧ effects others = effects history ∧ Without id x stage sys sys')
      (hw : ∀ {sys'}, Without id x stage sys sys' →
        Without id x next t sys' ∧ events.filter SchedulerEvent.hasEffect = []) :
      ∃ sys', Run start others sys' ∧ effects others = effects ({ act, events } :: history) ∧ Without id x next t sys' := by
    obtain ⟨sys', hrun, heffects, h⟩ := ih
    obtain ⟨hnext, hsilent⟩ := hw h
    exact ⟨sys', hrun, by rw [effects_cons, hsilent, heffects]; rfl, hnext⟩
  induction h with
  | made hrun hs => exact ⟨_, hrun, rfl, .made (hsane hrun).pooled hs⟩
  | sent hrun hc hs => exact ⟨_, hrun, rfl, .sent (hsane hrun).pooled hc hs⟩
  | posted _ hopen hs ih => exact hown ih fun hw => hw.posted hopen hs
  | received _ hs ih => exact hown ih fun hw => hw.received hs
  | found h hrepeats hs ih =>
      have hawaits := hrepeats.awaits hstart hpool
      exact hown ih fun hw => hw.found (hsane h.run) hawaits hs
  | lapsed _ hclosed hs ih => exact hown ih fun hw => hw.lapsed hclosed hs
  | answered _ hs ih => exact hown ih fun hw => hw.offered hs
  | aside h hstage hs ih =>
      obtain ⟨sys', hrun, heffects, hw⟩ := ih
      obtain ⟨t', hs', hw'⟩ := hw.aside (hsane h.run) hstage hs
      exact ⟨t', hrun.step hs', by rw [effects_cons, effects_cons, heffects], hw'⟩

/-- Without a request whose input equals the pending one of the action, a run is still a run, whatever follows: with the
same function calls, deliveries and other effects it comes to a state that differs in nothing but what is left of the
request, and in nothing at all once the request is answered. So it is with a request that repeats one that was taken up
before, however far its flight has come, if nothing of the action was delivered and no other input came meanwhile. -/
theorem repeated_request_unseen (hstart : start.IsOpened) (hpool : start.scheduler.isSynchronous = false)
    (h : Request start id x stage history others sys) :
    ∃ sys', Run start others sys' ∧ effects others = effects history ∧
      sys'.scheduler = { sys.scheduler with calls := sys'.scheduler.calls } ∧
      (stage = .answered → sys.scheduler.Same sys'.scheduler ∧ sys'.loop = sys.loop) := by
  obtain ⟨sys', hrun, heffects, hw⟩ := h.without hstart hpool
  refine ⟨sys', hrun, heffects, hw.rest, fun hanswered => ?_⟩
  subst hanswered
  cases hw with
  | answered hb hloop => exact ⟨hb.same, hloop⟩

end System

end

namespace System

/-- Another thread repeats a request whose flight has completed and waits to be handed back. -/
theorem repeat_of_completed_unseen : ∃ history others sys sys', Request (small true) ⟨0⟩ (.string "a") .answered history
    others sys ∧ history.length = others.length + 5 ∧ sys.scheduler.flights.map Flight.phase = [.completed] ∧
    Run (small true) others sys' ∧ effects others = effects history ∧ sys.scheduler.Same sys'.scheduler ∧
    sys'.loop = sys.loop := by
  let acts : List SystemAct :=
    [ .thread (.advance .owner none), .thread (.advance (.worker 1) none), .thread (.advance (.worker 1) none),
      .thread (.advance (.worker 1) none), .thread (.advance (.worker 1) none),
      .thread (.reply (.worker 1) (.value (some (.string "x")))), .thread (.advance (.worker 1) none) ]
  obtain ⟨before, after, recent, sys₀, sys₁, sys₂, sys₃, sys₄, sys₅, hmade, hasking, hlook, hr, hquiet, hsent, hposted,
      hreceived, hfound, hanswered, hopen, hopen', hphases⟩ :
      ∃ before after recent sys₀ sys₁ sys₂ sys₃ sys₄ sys₅,
      (small true).step (.thread (.apply .owner ⟨0⟩ (.string "a"))) = some (before, []) ∧
      before.scheduler.asking ⟨0⟩ = some (.string "a") ∧
      before.step (.thread (.advance .owner none)) = some (after, [.queued 0 ⟨0⟩ .get (.string "a")]) ∧
      replay acts [] after = some (recent, sys₀) ∧
      recent.all (fun m => m.events.all fun e => (e.accepted? ⟨0⟩).isNone && !e.lands ⟨0⟩) = true ∧
      sys₀.step (.thread (.apply (.other 1) ⟨0⟩ (.string "a"))) = some (sys₁, []) ∧
      sys₁.step (.thread (.advance (.other 1) none))
        = some (sys₂, [.posted (.other 1) (.request ⟨0⟩ (.string "a")), .returned (.other 1)]) ∧
      sys₂.step (.thread (.run (.request ⟨0⟩ (.string "a")))) = some (sys₃, []) ∧
      sys₃.step (.thread (.advance .owner none)) = some (sys₄, []) ∧
      sys₄.step (.thread (.advance .owner none)) = some (sys₅, [.coalesced 0 ⟨0⟩, .returned .owner]) ∧
      sys₁.loop = {} ∧ sys₃.scheduler.isClosed = false ∧ sys₅.scheduler.flights.map Flight.phase = [.completed] :=
    ⟨_, _, _, _, _, _, _, _, _, rfl, rfl, rfl, rfl, rfl, rfl, rfl, rfl, rfl, rfl, rfl, rfl, rfl⟩
  have hstart : IsOpened (small true) := (small_reachable true).opened
  have hearlier := Run.start.step hmade
  have hrecent : Run after recent sys₀ := replay_run .start hr
  have hsend := Request.sent (x := .string "a") ((hearlier.step hlook).trans hrecent) (by decide) hsent
  have hpost := hsend.posted (by rw [hopen]) hposted
  rw [hopen] at hpost
  have hreceive := Request.received hpost hreceived
  let look : Moment := { act := .thread (.advance .owner none), events := [.queued 0 ⟨0⟩ .get (.string "a")] }
  have hsince := ((hrecent.step hsent).step hposted).step hreceived
  have hsilent : ∀ m ∈ recent, ∀ e ∈ m.events, e.accepted? ⟨0⟩ = none ∧ e.lands ⟨0⟩ = false := by simpa using hquiet
  have hfind := hreceive.found (.inr ⟨rfl, hopen', _, look, _, before, after, by rfl, hearlier, hlook, hasking,
    ⟨_, List.mem_cons_self, rfl⟩, hsince, by simpa [SchedulerEvent.accepted?, SchedulerEvent.lands] using hsilent⟩) hfound
  have hanswer := hfind.answered hanswered
  obtain ⟨sys', hrun, heffects, -, hsame⟩ := repeated_request_unseen hstart rfl hanswer
  exact ⟨_, _, sys₅, sys', hanswer, rfl, hphases, hrun, heffects, hsame rfl⟩

end System

end SingleFlight
