import SingleFlight.Proofs.Drained
import SingleFlight.Proofs.LastTold
import SingleFlight.Proofs.Scheduler.Line

/-!
# The order of requests

With a pool, a request of another thread is posted and waits in the loop, and a request of the owner is processed at
once. So requests come into effect in the order in which they were made, except that one of the owner overtakes those
that wait in the loop. When a scheduler has come to rest, the last outcome of an action is that of the request that came
into effect last.
-/

namespace SingleFlight

open Scheduler

section

variable [Payloads]

theorem OwnerLoop.yield_requests {l l' : OwnerLoop Posted} {act : SchedulerAct} (h : l.yield act = some l') (id : ActionId) :
    l.queue.filterMap (Posted.asks? id) = (act.takes? id).toList ++ l'.queue.filterMap (Posted.asks? id) := by
  rcases (yield_cases h).2 with ⟨hno, hq⟩ | ⟨job, rfl, hq⟩
  · have hnone : act.takes? id = none := by
      cases act with
      | run job => exact absurd rfl (hno job)
      | _ => rfl
    rw [hq, hnone]; rfl
  · rw [hq, List.filterMap_cons, SchedulerAct.takes?]
    cases job.asks? id <;> rfl

/-- The input of a request. -/
def SchedulerAct.input? : SchedulerAct → Option Payload
  | .apply _ _ input => some input
  | .close _ | .run _ | .advance _ _ | .reply _ _ | .leave _ _ | .expire _ | .abandon _ => none

def Moment.input? (moment : Moment) : Option Payload :=
  match moment.act with
  | .thread act => act.input?
  | .dropLoop => none

namespace System

variable {sys sys' sys₁ sys₂ : System} {a : SchedulerAct} {loop : OwnerLoop Posted} {history before later : List Moment}
  {events : List SchedulerEvent} {d : Caller} {id : ActionId} {x y : Payload}

/-- The inputs of the requests of the action that wait in the loop, oldest first. -/
def waiting (sys : System) (id : ActionId) : List Payload := sys.loop.queue.filterMap (Posted.asks? id)

/-- The inputs of the requests of the action that the owner has in hand or finds in the loop, oldest first. -/
def line (sys : System) (id : ActionId) : List Payload := (sys.scheduler.asking id).toList ++ sys.waiting id

/-- The inputs of the requests of the action that the events post. -/
def postedFor (id : ActionId) (events : List SchedulerEvent) : List Payload :=
  (events.filterMap SchedulerEvent.job?).filterMap (Posted.asks? id)

/-- The input is in effect once the requests in line are processed. -/
def Prevails (sys : System) (id : ActionId) (x : Payload) : Prop :=
  (sys.line id).getLast? = some x ∨ sys.line id = [] ∧ sys.scheduler.Effective id x

/-- Comparing the input of a request does not panic. -/
def Comparable (history : List Moment) : Prop :=
  ∀ moment ∈ history, ∀ c id input, moment.act = .thread (.apply c id input) → input.IsComparable

theorem mem_postedFor (h : x ∈ postedFor id events) : ∃ c, .posted c (.request id x) ∈ events := by
  obtain ⟨job, hjob, hx⟩ := List.mem_filterMap.mp h
  obtain ⟨e, he, hjob⟩ := List.mem_filterMap.mp hjob
  cases e with
  | posted c job' =>
      cases hjob
      cases job with
      | request action input =>
          simp only [Posted.asks?] at hx
          split at hx
          · rename_i e; cases hx; exact ⟨c, e ▸ he⟩
          · cases hx
      | handBack n => cases hx
  | _ => cases hjob

theorem postedFor_of_mem (h : .posted d (.request id x) ∈ events) : x ∈ postedFor id events :=
  List.mem_filterMap.mpr ⟨.request id x, List.mem_filterMap.mpr ⟨_, h, rfl⟩, by simp [Posted.asks?]⟩

/-! ## Steps -/

/-- What a step needs so that the requests of the action are served in line. -/
structure InOrder (sys : System) (id : ActionId) (a : SchedulerAct) (sys' : System) : Prop where
  sane : sys.scheduler.Sane
  foremost : sys.scheduler.Foremost
  alive : sys.loop.isClosed = false
  isOpen : sys'.scheduler.isClosed = false
  unasked : ∀ c input, a ≠ .apply c id input
  registered : sys.scheduler.registration? id ≠ none
  comparable : sys.scheduler.Fed fun _ input => input.IsComparable

/-- A step adds the requests that it posts to those in line, and it leaves these as they are or puts the first one into
effect. -/
theorem InOrder.line_step (h : sys.InOrder id a sys') (hyield : sys.loop.yield a = some loop)
    (hm : Move sys.scheduler a sys'.scheduler events)
    (hloop : sys'.loop = loop.postAll (events.filterMap SchedulerEvent.job?)) :
    sys'.line id = sys.line id ++ postedFor id events ∧ Quiet id events ∨
      ∃ x rest, sys.line id = x :: rest ∧ sys'.line id = rest ++ postedFor id events ∧ sys'.scheduler.Effective id x := by
  have halive : loop.isClosed = false := (OwnerLoop.yield_cases hyield).1.trans h.alive
  have hbefore : sys.waiting id = (a.takes? id).toList ++ loop.queue.filterMap (Posted.asks? id) :=
    OwnerLoop.yield_requests hyield id
  have hafter : sys'.waiting id = loop.queue.filterMap (Posted.asks? id) ++ postedFor id events := by
    rw [waiting, hloop, OwnerLoop.queue_postAll _ _ halive, List.filterMap_append]
    rfl
  cases hm.attending h.sane h.foremost h.isOpen (h.unasked .owner) h.registered h.comparable with
  | waits hasking hquiet =>
      refine .inl ⟨?_, hquiet⟩
      rw [line, line, hasking, hbefore, hafter]
      simp
  | @serves x hasked hasking htakes heffective =>
      refine .inr ⟨x, loop.queue.filterMap (Posted.asks? id), ?_, ?_, heffective⟩
      · rw [line, hasked, hbefore, htakes]; rfl
      · rw [line, hasking, hafter]; rfl

/-- The last one of the requests that a step posts is the last one in line. -/
theorem InOrder.posted_prevails (h : sys.InOrder id a sys') (hyield : sys.loop.yield a = some loop)
    (hm : Move sys.scheduler a sys'.scheduler events)
    (hloop : sys'.loop = loop.postAll (events.filterMap SchedulerEvent.job?))
    (hx : (postedFor id events).getLast? = some x) : sys'.Prevails id x := by
  refine .inl ?_
  rcases h.line_step hyield hm hloop with ⟨hline, -⟩ | ⟨_, _, -, hline, -⟩
  all_goals rw [hline, List.getLast?_append, hx]; rfl

theorem InOrder.still_prevails (h : sys.InOrder id a sys') (hyield : sys.loop.yield a = some loop)
    (hm : Move sys.scheduler a sys'.scheduler events)
    (hloop : sys'.loop = loop.postAll (events.filterMap SchedulerEvent.job?)) (hnone : postedFor id events = [])
    (hx : sys.Prevails id x) : sys'.Prevails id x := by
  rcases h.line_step hyield hm hloop with ⟨hline, hquiet⟩ | ⟨y, rest, hbefore, hline, heffective⟩
  · rw [hnone, List.append_nil] at hline
    rcases hx with hx | ⟨hempty, heffective⟩
    · exact .inl (hline ▸ hx)
    · exact .inr ⟨hline.trans hempty, heffective.move hm h.sane hquiet⟩
  · rw [hnone, List.append_nil] at hline
    rcases hx with hx | ⟨hempty, -⟩
    · rw [hbefore] at hx
      cases rest with
      | nil => cases hx; exact .inr ⟨hline, heffective⟩
      | cons z rest => exact .inl (by rw [hline, ← hx, List.getLast?_cons_cons])
    · rw [hbefore] at hempty; cases hempty

/-! ## Runs -/

/-- Every request of the action on its way to the loop has the property, and one with the property comes into effect, or
the thread is about to post the given one. -/
structure Prevailing (P : Payload → Prop) (d : Caller) (id : ActionId) (y : Payload) (sys : System) : Prop where
  posting : ∀ c x, .posting id x ∈ sys.scheduler.callsOf c → P x
  prevails : .posting id y ∈ sys.scheduler.callsOf d ∨ ∃ x, P x ∧ sys.Prevails id x

theorem Prevailing.step_move {P : Payload → Prop} (h : sys.Prevailing P d id y) (ho : sys.InOrder id a sys')
    (hyield : sys.loop.yield a = some loop) (hm : Move sys.scheduler a sys'.scheduler events)
    (hloop : sys'.loop = loop.postAll (events.filterMap SchedulerEvent.job?)) : sys'.Prevailing P d id y := by
  have hposted {x : Payload} (hx : (postedFor id events).getLast? = some x) : ∃ x, P x ∧ sys'.Prevails id x := by
    obtain ⟨c, he⟩ := mem_postedFor (List.mem_of_getLast? hx)
    exact ⟨x, h.posting c x (hm.posted he), ho.posted_prevails hyield hm hloop hx⟩
  refine ⟨fun c x hx => ?_, ?_⟩
  · rcases hm.posting_before hx with hx | rfl
    · exact h.posting c x hx
    · exact absurd rfl (ho.unasked c x)
  · cases hlast : (postedFor id events).getLast? with
    | some x => exact .inr (hposted hlast)
    | none =>
        have hnone : postedFor id events = [] := List.getLast?_eq_none_iff.mp hlast
        rcases h.prevails with hy | ⟨x, hx, hprevails⟩
        · rcases hm.posting hy with hy | he
          · exact .inl hy
          · have := postedFor_of_mem he
            rw [hnone] at this; cases this
        · exact .inr ⟨x, hx, ho.still_prevails hyield hm hloop hnone hprevails⟩

theorem Comparable.fed (h : Comparable history) (hreach : Reachable history sys)
    (hpool : sys.scheduler.isSynchronous = false) : sys.scheduler.Fed fun _ input => input.IsComparable :=
  (hreach.fed hpool fun m hm c id input _ hact _ _ => h m hm c id input hact).1

theorem Run.registration? (h : Run sys later sys') (id : ActionId) :
    sys'.scheduler.registration? id = sys.scheduler.registration? id := by
  induction h with
  | start => rfl
  | step _ hs ih =>
      rcases step_cases hs with ⟨-, rfl, -⟩ | ⟨a, loop, -, -, hm, -⟩
      · exact ih
      · exact (hm.keeps.registration? id).trans ih

/-- What prevails does so until the action is requested again. -/
theorem Run.prevailing {P : Payload → Prop} (hrun : Run sys₂ later sys) (h : sys₂.Prevailing P d id y)
    (hreach : Reachable before sys₂) (hpool : sys₂.scheduler.isSynchronous = false)
    (hreg : sys₂.scheduler.registration? id ≠ none) (hcomp : Comparable (later ++ before))
    (hlast : ∀ moment ∈ later, ∀ c x, moment.act ≠ .thread (.apply c id x)) (hopen : sys.scheduler.isClosed = false)
    (hloop : sys.loop.isClosed = false) : sys.Prevailing P d id y := by
  induction hrun with
  | start => exact h
  | @step later mid act sys' events hrun hs ih =>
      have hmid := hreach.run hrun
      have hpooled := hrun.synchronous.trans hpool
      have hcomp' : Comparable (later ++ before) := fun m hm => hcomp m (List.mem_cons_of_mem _ hm)
      have hlast' : ∀ moment ∈ later, ∀ c x, moment.act ≠ .thread (.apply c id x) :=
        fun m hm => hlast m (List.mem_cons_of_mem _ hm)
      rcases step_cases hs with ⟨rfl, rfl, -⟩ | ⟨a, loop, rfl, hyield, hm, hposted⟩
      · cases hloop
      · have halive : mid.loop.isClosed = false := by
          rw [hposted, OwnerLoop.isClosed_postAll] at hloop
          exact (OwnerLoop.yield_cases hyield).1.symm.trans hloop
        have hregistered : mid.scheduler.registration? id ≠ none := hrun.registration? id ▸ hreg
        have ho : mid.InOrder id a sys' := ⟨hmid.sane hpooled, hmid.foremost hpooled, halive, hopen,
          fun c x e => hlast _ List.mem_cons_self c x (congrArg _ e), hregistered, hcomp'.fed hmid hpooled⟩
        exact (ih hcomp' hlast' (hm.keeps.opened hopen) halive).step_move ho hyield hm hposted

/-! ## Calls -/

/-- What a call of the thread may bring into effect: its own input, or that of the last request in the loop if the owner
overtakes it, or that of a request which another thread is about to post. -/
def MayPrevail (sys : System) (d : Caller) (id : ActionId) (y x : Payload) : Prop :=
  x = (if d = .owner then (sys.waiting id).getLast?.getD y else y) ∨ ∃ c, .posting id x ∈ sys.scheduler.callsOf c

/-- What is left to do for a request that is accepted. -/
def request (d : Caller) (id : ActionId) (input : Payload) : Call :=
  if d = .owner then .applying id input else .posting id input

theorem step_request {r : Registration} (hs : sys₁.step (.thread (.apply d id y)) = some (sys₂, events))
    (hpool : sys₁.scheduler.isSynchronous = false) (hr : sys₁.scheduler.registration? id = some r)
    (ha : r.accepts y = true) (hopen : sys₁.scheduler.isClosed = false) :
    sys₁.scheduler.isFree d = true ∧ sys₂ = { sys₁ with scheduler := sys₁.scheduler.push d (request d id y) } := by
  cases hfree : sys₁.scheduler.isFree d with
  | false => simp [step, OwnerLoop.yield, Scheduler.step, hfree] at hs
  | true =>
      refine ⟨rfl, ?_⟩
      simp only [step, OwnerLoop.yield, Scheduler.step, hfree, apply, hr, ha, hopen, hpool, Option.bind_some, if_true,
        Bool.not_true, Bool.false_eq_true, if_false] at hs
      rw [request]
      split at hs
      · rename_i hd; cases hs; rw [if_pos hd, hd]; rfl
      · rename_i hd; cases hs; rw [if_neg hd]; rfl

theorem Prevailing.of_call {r : Registration} (hs : sys₁.step (.thread (.apply d id y)) = some (sys₂, events))
    (hsane : sys₁.scheduler.Sane) (hr : sys₁.scheduler.registration? id = some r) (ha : r.accepts y = true)
    (hopen : sys₁.scheduler.isClosed = false) : sys₂.Prevailing (sys₁.MayPrevail d id y) d id y := by
  obtain ⟨hfree, rfl⟩ := step_request hs hsane.pooled hr ha hopen
  have hout := hsane.regular.orderly.outside hfree
  by_cases hd : d = .owner
  · subst hd
    refine ⟨fun c x hx => .inr ⟨c, ?_⟩, .inr ⟨_, .inl rfl, .inl ?_⟩⟩
    · rw [push, callsOf_setCalls] at hx
      split at hx
      · rename_i e; subst e; simpa [request] using hx
      · exact hx
    · have hasking : (sys₁.scheduler.push .owner (request .owner id y)).asking id = some y := by
        rw [push, asking_setCalls, findSome?_head hout]
        simp [request, asks?]
      simp [line, hasking, waiting, List.getLast?_cons]
  · refine ⟨fun c x hx => ?_, .inl (by simp [push, request, hd])⟩
    rw [push, callsOf_setCalls] at hx
    split at hx
    · rename_i e
      subst e
      rcases List.mem_cons.mp hx with e | hx
      · simp [request, hd] at e
        exact .inl (e.trans (if_neg hd).symm)
      · exact .inr ⟨c, hx⟩
    · exact .inr ⟨c, hx⟩

/-! ## States to look at -/

/-- Nobody has anything to do for the scheduler, to be looked at. -/
def isQuiescent (sys : System) : Bool :=
  (sys.scheduler.callsOf .owner).isEmpty && sys.loop.queue.isEmpty &&
    sys.scheduler.pool.all fun p => p.queue.isEmpty && p.workers.all fun x => x.phase.task?.isNone

theorem quiescent_of_isQuiescent (h : sys.isQuiescent = true) : sys.Quiescent := by
  simp only [isQuiescent, Bool.and_eq_true, List.isEmpty_iff, Option.all_eq_true] at h
  obtain ⟨⟨hcalls, hjobs⟩, hpool⟩ := h
  refine ⟨hcalls, hjobs, fun p hp => (hpool p hp).1, fun p hp x hx => ?_⟩
  exact Option.isNone_iff_eq_none.mp (List.all_eq_true.mp (hpool p hp).2 x hx)

/-! ## The last request prevails -/

/-- With a pool, let a thread request an action with an input that it accepts, and nobody request it again. If all
clones and comparisons go well, no submission is refused and less than `2 ^ 64` newer inputs come in the course of one
invocation, then a scheduler that comes to rest without a close has told the outcome of this input last, or of one that
is equal to it; unless other requests of the action were under way when the call began: a call of the owner comes into
effect before those that wait in the loop, the last of which prevails, and so may one that a thread had not posted yet. -/
theorem last_request_prevails {r : Registration} (h : Reachable before sys₁)
    (hpool : sys₁.scheduler.isSynchronous = false) (hr : sys₁.scheduler.registration? id = some r)
    (ha : r.accepts y = true) (hs : sys₁.step (.thread (.apply d id y)) = some (sys₂, events))
    (hrun : Run sys₂ later sys) (hlast : ∀ moment ∈ later, ∀ c x, moment.act ≠ .thread (.apply c id x))
    (hhistory : history = later ++ { act := .thread (.apply d id y), events } :: before)
    (hcopy : Copyable history) (hcomp : Comparable history) (hfew : FewInputs history) (hnever : NeverRefused history)
    (hopen : sys.scheduler.isClosed = false) (hloop : sys.loop.isClosed = false) (hq : sys.Quiescent)
    (hreturned : sys.scheduler.callsOf d = []) :
    ∃ n f o x, sys.scheduler.flights[n]? = some f ∧ lastTold id history = some (n, r.deliver o) ∧
      (FromNewest r history n o ∨ Exhausted f o) ∧ newest n history = some f.input ∧ f.input.Same x ∧
      sys₁.MayPrevail d id y x := by
  subst hhistory
  obtain ⟨loop, -, hm, -⟩ := step_thread_cases hs
  have hopen₂ : sys₂.scheduler.isClosed = false := by
    cases hc : sys₂.scheduler.isClosed with
    | false => rfl
    | true => cases (hrun.closed hc).symm.trans hopen
  have h₂ := h.step hs
  have hpool₂ := (step_synchronous hs).trans hpool
  have hr₂ : sys₂.scheduler.registration? id = some r := (hm.keeps.registration? id).trans hr
  have hreach := h₂.run hrun
  have hpooled := hrun.synchronous.trans hpool₂
  have hcall := Prevailing.of_call hs (h.sane hpool) hr ha (hm.keeps.opened hopen₂)
  have hprevailing := hrun.prevailing hcall h₂ hpool₂ (by simp [hr₂]) hcomp hlast hopen hloop
  have hline : sys.line id = [] := by simp [line, waiting, asking, hq.jobs, hq.calls]
  rcases hprevailing.prevails with hx | ⟨x, hmay, hx | ⟨-, n, f, hlatest, hf, hsame⟩⟩
  · rw [hreturned] at hx; cases hx
  · rw [hline] at hx; cases hx
  · obtain ⟨r', o, hr', ⟨f', r'', hf', hr'', hright⟩, htold⟩ :=
      hreach.told_at_rest hpooled hopen hloop hnever hcopy hfew hq hlatest
    obtain ⟨g, hg, hact⟩ := hlatest.started
    cases hf.symm.trans hf'
    cases hf.symm.trans hg
    rw [hact] at hr''
    have hsame' := (hrun.registration? id).trans hr₂
    cases hr'.symm.trans hsame'
    cases hr''.symm.trans hsame'
    have hnewest := hreach.newest_eq hpooled n
    rw [hf] at hnewest
    exact ⟨n, f, o, x, hf, htold, hright, hnewest, hsame, hmay⟩

end System

end

namespace System

/-- The step is refused nothing, and it requests nothing but a text. -/
def isTame (moment : Moment) : Bool :=
  moment.events.all (fun e => !e.isRefusal) && moment.input?.all fun input => input.type = .string

theorem harmless {history : List Moment} (h : history.all isTame = true) :
    Copyable history ∧ Comparable history ∧ NeverRefused history := by
  have htext {moment : Moment} {c : Caller} {id : ActionId} {input : Payload} (hm : moment ∈ history)
      (hact : moment.act = .thread (.apply c id input)) : ∃ text, input = .string text := by
    have htame := List.all_eq_true.mp h moment hm
    simp only [isTame, Moment.input?, hact, SchedulerAct.input?, Option.all_some, Bool.and_eq_true,
      decide_eq_true_eq] at htame
    obtain ⟨type, text⟩ := input
    obtain rfl : type = .string := htame.2
    exact ⟨text, rfl⟩
  refine ⟨fun m hm c id input hact => ?_, fun m hm c id input hact b message => ?_, ?_⟩
  · obtain ⟨text, rfl⟩ := htext hm hact
    exact ⟨_, rfl⟩
  · obtain ⟨text, rfl⟩ := htext hm hact
    obtain ⟨answer, hanswer⟩ := Payload.compare_of_ne_fragile (a := .string text) (by simp) b
    simp [hanswer]
  · rintro m hm ⟨e, he, hrefusal⟩
    have htame := List.all_eq_true.mp h m hm
    simp only [isTame, Bool.and_eq_true] at htame
    have := List.all_eq_true.mp htame.1 e he
    rw [hrefusal] at this; cases this

/-- Two other threads post one request each, the second one after the first one has returned; both are folded into one
flight, which is run once. -/
theorem second_poster_prevails : ∃ before sys₁ sys₂ later sys history r o, Reachable before sys₁ ∧
    sys₁.scheduler.isSynchronous = false ∧ sys₁.scheduler.registration? ⟨0⟩ = some r ∧
    r.accepts (.string "b") = true ∧ sys₁.waiting ⟨0⟩ = [.string "a"] ∧
    sys₁.step (.thread (.apply (.other 1) ⟨0⟩ (.string "b"))) = some (sys₂, []) ∧ Run sys₂ later sys ∧
    (∀ moment ∈ later, ∀ c x, moment.act ≠ .thread (.apply c ⟨0⟩ x)) ∧
    history = later ++ { act := .thread (.apply (.other 1) ⟨0⟩ (.string "b")), events := [] } :: before ∧
    Copyable history ∧ Comparable history ∧ FewInputs history ∧ NeverRefused history ∧
    sys.scheduler.isClosed = false ∧ sys.loop.isClosed = false ∧ sys.Quiescent ∧
    sys.scheduler.callsOf (.other 1) = [] ∧ newest 0 history = some (.string "b") ∧
    lastTold ⟨0⟩ history = some (0, r.deliver o) ∧ FromNewest r history 0 o := by
  let posting : List SystemAct :=
    [ .thread (.apply (.other 0) ⟨0⟩ (.string "a")), .thread (.advance (.other 0) none) ]
  let serving : List SystemAct :=
    [ .thread (.advance (.other 1) none),
      .thread (.run (.request ⟨0⟩ (.string "a"))), .thread (.advance .owner none), .thread (.advance .owner none),
      .thread (.run (.request ⟨0⟩ (.string "b"))), .thread (.advance .owner none), .thread (.advance .owner none),
      .thread (.advance (.worker 1) none), .thread (.advance (.worker 1) none), .thread (.advance (.worker 1) none),
      .thread (.advance (.worker 1) none), .thread (.reply (.worker 1) (.value (some (.string "x")))),
      .thread (.advance (.worker 1) none), .thread (.advance (.worker 1) none), .thread (.advance (.worker 1) none),
      .thread (.advance (.worker 1) none), .thread (.run (.handBack 0)), .thread (.advance .owner none),
      .thread (.advance .owner none), .thread (.leave .owner none), .thread (.advance (.worker 1) none) ]
  obtain ⟨before, sys₁, sys₂, later, sys, history, r, d, hbefore, hpool, hr, ha, hwaiting, hs, hlater, hasks, hhistory,
      htame, hlength, hopen, hloop, hrest, hother, hnewest, htold, hattempts⟩ :
      ∃ before sys₁ sys₂ later sys history r d, replay posting [] (small true) = some (before, sys₁) ∧
      sys₁.scheduler.isSynchronous = false ∧ sys₁.scheduler.registration? ⟨0⟩ = some r ∧
      r.accepts (.string "b") = true ∧ sys₁.waiting ⟨0⟩ = [.string "a"] ∧
      sys₁.step (.thread (.apply (.other 1) ⟨0⟩ (.string "b"))) = some (sys₂, []) ∧
      replay serving [] sys₂ = some (later, sys) ∧
      (later.all fun m => m.input?.isNone) = true ∧
      history = later ++ { act := .thread (.apply (.other 1) ⟨0⟩ (.string "b")), events := [] } :: before ∧
      history.all isTame = true ∧ (history.flatMap Moment.events).length = 20 ∧ sys.scheduler.isClosed = false ∧
      sys.loop.isClosed = false ∧ sys.isQuiescent = true ∧ sys.scheduler.callsOf (.other 1) = [] ∧
      newest 0 history = some (.string "b") ∧ lastTold ⟨0⟩ history = some (0, d) ∧
      (sys.scheduler.flights[0]?).map Flight.attempts = some 1 :=
    ⟨_, _, _, _, _, _, _, _, rfl, rfl, rfl, rfl, rfl, rfl, rfl, rfl, rfl, rfl, rfl, rfl, rfl, rfl, rfl, rfl, rfl, rfl⟩
  have hreach := replay_reachable (small_reachable true) hbefore
  have hrun := replay_run .start hlater
  obtain ⟨hcopy, hcomp, hnever⟩ := harmless htame
  have hfew : FewInputs history := .of_length (by rw [hlength]; decide)
  have hlast : ∀ moment ∈ later, ∀ c x, moment.act ≠ .thread (.apply c ⟨0⟩ x) := by
    intro m hm c x hact
    have := List.all_eq_true.mp hasks m hm
    rw [Moment.input?, hact] at this; cases this
  obtain ⟨n, f, o, x, hf, htold', hright, -⟩ := last_request_prevails hreach hpool hr ha hs hrun hlast hhistory hcopy hcomp
    hfew hnever hopen hloop (quiescent_of_isQuiescent hrest) hother
  cases htold.symm.trans htold'
  refine ⟨before, sys₁, sys₂, later, sys, history, r, o, hreach, hpool, hr, ha, hwaiting, hs, hrun, hlast, hhistory, hcopy,
    hcomp, hfew, hnever, hopen, hloop, quiescent_of_isQuiescent hrest, hother, hnewest, htold, ?_⟩
  rcases hright with hright | ⟨-, hlimit⟩
  · exact hright
  · have hone : f.attempts = 1 := by simpa [hf] using hattempts
    simp [hone, Flight.attemptLimit, UInt32.size] at hlimit

/-- Another thread's request is posted and its call has returned when the owner requests the same action. The request of
the owner starts a flight at once; the posted one is folded into the flight afterwards, and its outcome is the only one
that is told. -/
theorem overtaken_request_prevails : ∃ before sys₁ sys₂ later sys history d,
    replay [ .thread (.apply (.other 0) ⟨0⟩ (.string "a")), .thread (.advance (.other 0) none) ] [] (small true)
      = some (before, sys₁) ∧
    before.head?.map Moment.events = some [.posted (.other 0) (.request ⟨0⟩ (.string "a")), .returned (.other 0)] ∧
    sys₁.step (.thread (.apply .owner ⟨0⟩ (.string "b"))) = some (sys₂, []) ∧
    replay [ .thread (.advance .owner none), .thread (.advance .owner none), .thread (.run (.request ⟨0⟩ (.string "a"))),
        .thread (.advance .owner none), .thread (.advance .owner none), .thread (.advance (.worker 1) none),
        .thread (.advance (.worker 1) none), .thread (.advance (.worker 1) none), .thread (.advance (.worker 1) none),
        .thread (.reply (.worker 1) (.value (some (.string "x")))), .thread (.advance (.worker 1) none),
        .thread (.advance (.worker 1) none), .thread (.advance (.worker 1) none), .thread (.advance (.worker 1) none),
        .thread (.run (.handBack 0)), .thread (.advance .owner none), .thread (.advance .owner none),
        .thread (.leave .owner none), .thread (.advance (.worker 1) none) ] [] sys₂ = some (later, sys) ∧
    history = later ++ { act := .thread (.apply .owner ⟨0⟩ (.string "b")), events := [] } :: before ∧
    Reachable history sys ∧ sys.scheduler.isSynchronous = false ∧ Copyable history ∧ Comparable history ∧
    FewInputs history ∧ NeverRefused history ∧ sys.scheduler.isClosed = false ∧ sys.loop.isClosed = false ∧
    sys.Quiescent ∧ lastTold ⟨0⟩ history = some (0, d) ∧ newest 0 history = some (.string "a") ∧
    ∀ moment ∈ history, ∀ c n id x token, .called c n id x token ∈ moment.events → x = .string "a" := by
  obtain ⟨before, sys₁, sys₂, later, sys, history, d, hbefore, hreturned, hs, hlater, hhistory, hpool, htame, hlength, hopen,
      hloop, hrest, htold, hnewest, hcalled⟩ :
      ∃ before sys₁ sys₂ later sys history d,
      replay [ .thread (.apply (.other 0) ⟨0⟩ (.string "a")), .thread (.advance (.other 0) none) ] [] (small true)
        = some (before, sys₁) ∧
      before.head?.map Moment.events = some [.posted (.other 0) (.request ⟨0⟩ (.string "a")), .returned (.other 0)] ∧
      sys₁.step (.thread (.apply .owner ⟨0⟩ (.string "b"))) = some (sys₂, []) ∧
      replay [ .thread (.advance .owner none), .thread (.advance .owner none),
          .thread (.run (.request ⟨0⟩ (.string "a"))), .thread (.advance .owner none), .thread (.advance .owner none),
          .thread (.advance (.worker 1) none), .thread (.advance (.worker 1) none), .thread (.advance (.worker 1) none),
          .thread (.advance (.worker 1) none), .thread (.reply (.worker 1) (.value (some (.string "x")))),
          .thread (.advance (.worker 1) none), .thread (.advance (.worker 1) none), .thread (.advance (.worker 1) none),
          .thread (.advance (.worker 1) none), .thread (.run (.handBack 0)), .thread (.advance .owner none),
          .thread (.advance .owner none), .thread (.leave .owner none), .thread (.advance (.worker 1) none) ] [] sys₂
        = some (later, sys) ∧
      history = later ++ { act := .thread (.apply .owner ⟨0⟩ (.string "b")), events := [] } :: before ∧
      sys.scheduler.isSynchronous = false ∧ history.all isTame = true ∧
      (history.flatMap Moment.events).length = 18 ∧ sys.scheduler.isClosed = false ∧ sys.loop.isClosed = false ∧
      sys.isQuiescent = true ∧ lastTold ⟨0⟩ history = some (0, d) ∧ newest 0 history = some (.string "a") ∧
      (history.all fun m => m.events.all fun e => match e with
        | .called _ _ _ x _ => x == .string "a"
        | _ => true) = true :=
    ⟨_, _, _, _, _, _, _, rfl, rfl, rfl, rfl, rfl, rfl, rfl, rfl, rfl, rfl, rfl, rfl, rfl, rfl⟩
  obtain ⟨hcopy, hcomp, hnever⟩ := harmless htame
  have hfew : FewInputs history := .of_length (by rw [hlength]; decide)
  have hreach : Reachable history sys := by
    rw [hhistory]
    exact ((replay_reachable (small_reachable true) hbefore).step hs).run (replay_run .start hlater)
  refine ⟨before, sys₁, sys₂, later, sys, history, d, hbefore, hreturned, hs, hlater, hhistory, hreach, hpool, hcopy, hcomp,
    hfew, hnever, hopen, hloop, quiescent_of_isQuiescent hrest, htold, hnewest, fun m hm c n id x token he => ?_⟩
  exact eq_of_beq (List.all_eq_true.mp (List.all_eq_true.mp hcalled m hm) _ he)

end System

end SingleFlight
