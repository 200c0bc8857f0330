import SingleFlight.Proofs.OpenRequests
import SingleFlight.Proofs.Repeats

/-!
# Payloads that panic

Comparing and copying payloads runs code of their types, which may panic. With a pool, a request whose comparison panics
has no other effect: without its steps the run is still one, it comes to the same state, and it goes on in the same way.
A backup only reads, and it panics if and only if a pending input cannot be copied.
-/

namespace SingleFlight

/-! ## Copies -/

namespace Snapshot

variable {π : Type} [Erased π]

theorem error_of_copyEntries {message : String} : ∀ {l : List (ActionId × π)}, copyEntries l = .error message →
    ∃ e ∈ l, Erased.copy e.2 = .error message
  | (id, input) :: rest, h => by
      unfold copyEntries at h
      split at h
      · cases h
        exact ⟨_, List.mem_cons_self, ‹_›⟩
      · cases hrest : copyEntries rest with
        | ok copies => rw [hrest] at h; cases h
        | error other =>
            rw [hrest] at h
            cases h
            obtain ⟨e, he, hcopy⟩ := error_of_copyEntries hrest
            exact ⟨e, List.mem_cons_of_mem _ he, hcopy⟩

theorem copyEntries_error {e : ActionId × π} {message : String} (hcopy : Erased.copy e.2 = .error message) :
    ∀ {l : List (ActionId × π)}, e ∈ l → ∃ other, copyEntries l = .error other
  | (id, input) :: rest, h => by
      unfold copyEntries
      split
      · exact ⟨_, rfl⟩
      · rcases List.mem_cons.mp h with rfl | h
        · simp_all
        · obtain ⟨other, hrest⟩ := copyEntries_error hcopy h
          exact ⟨other, by rw [hrest]; rfl⟩

end Snapshot

section

variable [Payloads]

namespace Scheduler

variable {s s' t : Scheduler} {act : SchedulerAct} {c : Caller} {n : Nat} {id : ActionId} {x : Payload} {message : String}
  {rest : List Call} {refusal : Option IoError} {events : List SchedulerEvent}

theorem Charted.backup_error (h : s.Charted) :
    (∀ message, s.backup .owner = .error message → ∃ id y, s.pendingInput id = some y ∧ y.copy = .error message) ∧
    ∀ id y message, s.pendingInput id = some y → y.copy = .error message → ∃ other, s.backup .owner = .error other := by
  have hbackup : s.backup .owner = (Snapshot.copyEntries s.pending.entries).map .mk := if_pos (by simp [mayLook])
  have hentry {id : ActionId} {y : Payload} : (id, y) ∈ s.pending.entries ↔ s.pendingInput id = some y := by
    rw [← h.get?_pending]
    exact (Snapshot.lookup_eq_some (Snapshot.ofList_ascending s.pendingEntries).nodup).symm
  rw [hbackup]
  refine ⟨fun message he => ?_, fun id y message hy hcopy => ?_⟩
  · cases hcopies : Snapshot.copyEntries s.pending.entries with
    | ok copies => rw [hcopies] at he; cases he
    | error other =>
        rw [hcopies] at he
        cases he
        obtain ⟨⟨id, y⟩, hmem, hcopy⟩ := Snapshot.error_of_copyEntries hcopies
        exact ⟨id, y, hentry.mp hmem, hcopy⟩
  · obtain ⟨other, hcopies⟩ := Snapshot.copyEntries_error hcopy (hentry.mpr hy)
    exact ⟨other, by rw [hcopies]; rfl⟩

/-! ## Comparisons -/

/-- Comparing the pending input of the action with the given one panics with the message. -/
def Clashes (s : Scheduler) (id : ActionId) (x : Payload) (message : String) : Prop :=
  ∃ y, s.pendingInput id = some y ∧ y.compare x = .error message

/-- The flight is one of the action, and comparing its input with the given one panics. -/
def Clashing (s : Scheduler) (id : ActionId) (x : Payload) (message : String) (n : Nat) : Prop :=
  ∃ f, s.flights[n]? = some f ∧ f.input.compare x = .error message ∧ (s.isClosed = false → (id, n) ∈ s.inFlight)

theorem step_clashes (hs : s.Sane) (hcs : s.callsOf .owner = .applying id x :: rest) (hx : s.Clashes id x message) :
    s.isClosed = false ∧ ∃ n, s.Clashing id x message n ∧
      s.step (.advance .owner refusal) = some (s.setCalls .owner (.offering n x :: rest), []) := by
  obtain ⟨y, hy, hxy⟩ := hx
  obtain ⟨hopen, n, f, hn, hf, rfl, hstep⟩ := step_pending hs hcs hy
  exact ⟨hopen, n, ⟨f, hf, hxy, fun _ => hn⟩, hstep⟩

/-- The panic ends the call, and nothing was written before. -/
theorem Clashing.step (h : s.Clashing id x message n) (hs : s.Charted) (hcs : s.callsOf c = .offering n x :: rest) :
    ∃ events, events.filterMap SchedulerEvent.job? = [] ∧ (s.isClosed = false → events = [.panicked c message]) ∧
      s.step (.advance c refusal) = some (s.setCalls c rest, events) := by
  obtain ⟨f, hf, hx, hair⟩ := h
  by_cases hc : f.phase = .closed
  -- no flight in the air is closed, so the scheduler was closed meanwhile and nothing is compared
  · refine ⟨[.dropped f.action .flightClosed, .returned c], rfl, fun hopen => ?_, ?_⟩
    · obtain ⟨g, -, hg, -, hne, -⟩ := hs.charted id n (hair hopen)
      cases hf.symm.trans hg
      exact absurd hc hne
    · simp only [Scheduler.step, advance, hcs, advanceCall, offer, hf, Flight.offer, hc, Option.map_some, if_true,
        setFlight_self hf, finish]
      rfl
  · refine ⟨[.panicked c message], rfl, fun _ => rfl, ?_⟩
    simp only [Scheduler.step, advance, hcs, advanceCall, offer, hf, Flight.offer, hc, hx, Option.map_some, if_false, fault]
    rfl

/-- With a pool, only the owner takes an outcome for its delivery. -/
theorem Move.deliveries_aside (hm : Move s act t events) (hs : s.Sane) (hact : act.actor ≠ .owner) (n : Nat) :
    SingleFlight.deliveries n events = 0 := by
  refine List.countP_eq_zero.mpr fun e he hd => ?_
  cases e with
  | delivered =>
      cases hm.news he rfl with
      | delivered hcs =>
          refine hact ?_
          rcases hcs with hcs | hcs
          · exact hs.regular.orderly.owner hs.pooled hcs of_decide_eq_true
          · exact hs.regular.orderly.owner hs.pooled hcs (by simp [Call.suits])
  | _ => cases hd

theorem Clashing.aside (h : s.Clashing id x message n) (hm : Move s act t events) (hs : s.Sane) (hact : act.actor ≠ .owner) :
    t.Clashing id x message n := by
  obtain ⟨f, hf, hx, hair⟩ := h
  obtain ⟨g, hg, hinput⟩ := hm.input_aside hs hact hf
  refine ⟨g, hg, hinput ▸ hx, fun hopen => ?_⟩
  -- it could land by a delivery, but those are up to the owner
  rcases hm.lands hs (hair (hm.keeps.opened hopen)) with hclosed | hn | hlanded
  · cases hopen.symm.trans hclosed
  · exact hn
  · rw [hm.deliveries_aside hs hact] at hlanded
    cases hlanded

/-! ## The same from then on -/

theorem Same.symm (h : s.Same s') : s'.Same s :=
  ⟨by rw [← h.rest], fun c => (h.calls c).symm⟩

theorem Same.beside (h : s.Same s') : Beside .owner [] s s' := by
  refine ⟨?_, (h.calls .owner).symm, fun c _ => h.calls c⟩
  calc s' = ({ s' with calls := s.calls } : Scheduler).withCalls s'.calls := rfl
    _ = s.withCalls s'.calls := by rw [h.rest]

end Scheduler

namespace System

open Scheduler

/-- Nothing but the order in which the calls are listed differs. -/
structure Alike (sys sys' : System) : Prop where
  same : sys.scheduler.Same sys'.scheduler
  loop : sys'.loop = sys.loop

/-- `Breaking start id x message stage history others sys`: the history of a run with a request of the action whose
comparison with the pending input panics, from the time when the flight was looked up, and the history without the steps of
the request. -/
inductive Breaking (start : System) (id : ActionId) (x : Payload) (message : String) :
    RequestStage → List Moment → List Moment → System → Prop
  | found {history others sys sys' refusal events} : Request start id x .applying history others sys →
      sys.scheduler.Clashes id x message → sys.step (.thread (.advance .owner refusal)) = some (sys', events) →
      Breaking start id x message .offering ({ act := .thread (.advance .owner refusal), events } :: history) others sys'
  | answered {history others sys sys' refusal events} : Breaking start id x message .offering history others sys →
      sys.step (.thread (.advance .owner refusal)) = some (sys', events) →
      Breaking start id x message .answered ({ act := .thread (.advance .owner refusal), events } :: history) others sys'
  /-- A step that is not one of the request. -/
  | aside {stage next history others sys act sys' events} : Breaking start id x message stage history others sys →
      stage.aside act = some next → sys.step act = some (sys', events) →
      Breaking start id x message next ({ act, events } :: history) ({ act, events } :: others) sys'

/-- `Past id x message stage sys sys'`: without a request that is at the stage and whose comparison panics, `sys` would be
`sys'`. -/
inductive Past (id : ActionId) (x : Payload) (message : String) : RequestStage → System → System → Prop
  | offering {n sys sys'} : Beside .owner [.offering n x] sys.scheduler sys'.scheduler → sys'.loop = sys.loop →
      sys.scheduler.Clashing id x message n → Past id x message .offering sys sys'
  | answered {sys sys'} : Beside .owner [] sys.scheduler sys'.scheduler → sys'.loop = sys.loop →
      Past id x message .answered sys sys'

variable {start sys sys' t : System} {history others later : List Moment} {act : SystemAct} {a : SchedulerAct}
  {id : ActionId} {x : Payload} {message : String} {stage next : RequestStage} {refusal : Option IoError}
  {events : List SchedulerEvent}

theorem Alike.symm (h : Alike sys sys') : Alike sys' sys := ⟨h.same.symm, h.loop.symm⟩

theorem Alike.step (h : Alike sys sys') (hs : sys.step act = some (t, events)) :
    ∃ t', sys'.step act = some (t', events) ∧ Alike t t' := by
  cases act with
  | dropLoop =>
      cases hs
      exact ⟨_, rfl, h.same, congrArg OwnerLoop.drop h.loop⟩
  | thread a =>
      obtain ⟨t', hs', hb, hloop⟩ := step_beside h.same.beside h.loop (.inr rfl) hs
      exact ⟨t', hs', hb.same, hloop⟩

theorem Alike.run (h : Alike sys sys') (hrun : Run sys later t) : ∃ t', Run sys' later t' ∧ Alike t t' := by
  induction hrun with
  | start => exact ⟨sys', .start, h⟩
  | step _ hs ih =>
      obtain ⟨t', hrun, halike⟩ := ih
      obtain ⟨u, hs', halike⟩ := halike.step hs
      exact ⟨u, hrun.step hs', halike⟩

/-! ## Without the steps of the request -/

theorem Request.sublist (h : Request start id x stage history others sys) : others.Sublist history := by
  induction h with
  | made | sent => exact List.sublist_cons_self _ _
  | posted _ _ _ ih | received _ _ ih | found _ _ _ ih | lapsed _ _ _ ih | answered _ _ ih => exact ih.cons _
  | aside _ _ _ ih => exact ih.cons_cons _

theorem Breaking.sublist (h : Breaking start id x message stage history others sys) : others.Sublist history := by
  induction h with
  | found h => exact h.sublist.cons _
  | answered _ _ ih => exact ih.cons _
  | aside _ _ _ ih => exact ih.cons_cons _

theorem Breaking.run (h : Breaking start id x message stage history others sys) : Run start history sys := by
  induction h with
  | found h _ hs => exact h.run.step hs
  | answered _ hs ih | aside _ _ hs ih => exact ih.step hs

theorem Without.clashes (h : Without id x .applying sys sys') (hsane : sys.scheduler.Sane)
    (hx : sys.scheduler.Clashes id x message) (hs : sys.step (.thread (.advance .owner refusal)) = some (t, events)) :
    Past id x message .offering t sys' := by
  cases h with
  | applying hb hloop =>
      obtain ⟨-, n, hclashing, hstep⟩ := step_clashes hsane hb.own hx
      cases hs.symm.trans (step_yielded rfl hstep)
      exact .offering (hb.turn [.offering n x]) hloop hclashing

theorem Past.panics (h : Past id x message .offering sys sys') (hsane : sys.scheduler.Sane)
    (hs : sys.step (.thread (.advance .owner refusal)) = some (t, events)) : Past id x message .answered t sys' := by
  cases h with
  | offering hb hloop hx =>
      obtain ⟨given, hjobs, -, hstep⟩ := hx.step hsane.charted hb.own
      cases hs.symm.trans (step_yielded rfl hstep)
      refine .answered (hb.turn []) ?_
      rw [hloop, hjobs]
      rfl

theorem Past.aside (h : Past id x message stage sys sys') (hsane : sys.scheduler.Sane) (hstage : stage.aside act = some next)
    (hs : sys.step act = some (t, events)) : ∃ t', sys'.step act = some (t', events) ∧ Past id x message next t t' := by
  cases h with
  | answered hb hloop =>
      cases hstage
      obtain ⟨t', hs', halike⟩ := (Alike.mk hb.same hloop).step hs
      exact ⟨t', hs', .answered halike.same.beside halike.loop⟩
  | offering hb hloop hx =>
      cases act with
      | dropLoop =>
          cases hs
          cases hstage
          exact ⟨_, rfl, .offering hb (congrArg OwnerLoop.drop hloop) hx⟩
      | thread a =>
          simp only [RequestStage.aside, Option.ite_none_left_eq_some, Option.some.injEq] at hstage
          obtain ⟨hact, rfl⟩ := hstage
          obtain ⟨t', hs', hb', hloop'⟩ := step_beside hb hloop (.inl hact) hs
          obtain ⟨-, -, hm, -⟩ := step_thread_cases hs
          exact ⟨t', hs', .offering hb' hloop' (hx.aside hm hsane hact)⟩

theorem Breaking.past (h : Breaking start id x message stage history others sys) (hstart : start.IsOpened)
    (hpool : start.scheduler.isSynchronous = false) : ∃ sys', Run start others sys' ∧ Past id x message stage sys sys' := by
  have hsane {history : List Moment} {sys : System} (hrun : Run start history sys) : sys.scheduler.Sane :=
    (hrun.reachable hstart).sane (hrun.synchronous.trans hpool)
  induction h with
  | found h hx hs =>
      obtain ⟨sys', hrun, -, hw⟩ := h.without hstart hpool
      exact ⟨sys', hrun, hw.clashes (hsane h.run) hx hs⟩
  | answered h hs ih =>
      obtain ⟨sys', hrun, hp⟩ := ih
      exact ⟨sys', hrun, hp.panics (hsane h.run) hs⟩
  | aside h hstage hs ih =>
      obtain ⟨sys', hrun, hp⟩ := ih
      obtain ⟨t', hs', hp'⟩ := hp.aside (hsane h.run) hstage hs
      exact ⟨t', hrun.step hs', hp'⟩

/-- Where nobody else takes a step meanwhile, the owner that starts the call, or the job of it, is at the panic after two
more steps, and all is as before. -/
theorem call_clashes (hsane : sys.scheduler.Sane) (hx : sys.scheduler.Clashes id x message)
    (ha : a = .apply .owner id x ∨ a = .run (.request id x)) (hs : sys.step (.thread a) = some (t, []))
    (refusal refusal' : Option IoError) : ∃ u v, t.step (.thread (.advance .owner refusal)) = some (u, []) ∧
      u.step (.thread (.advance .owner refusal')) = some (v, [.panicked .owner message]) ∧
      sys.scheduler.Same v.scheduler ∧ sys.loop.yield a = some v.loop := by
  obtain ⟨loop, hy, hstep, hpost⟩ := step_yields hs
  have ht : t.scheduler = sys.scheduler.setCalls .owner (.applying id x :: sys.scheduler.callsOf .owner) := by
    rcases ha with rfl | rfl
    · rw [step_apply hsane.pooled hstep, if_pos rfl]
    · exact (step_received hstep).1
  have hb : Beside .owner [.applying id x] t.scheduler sys.scheduler :=
    ht ▸ (Beside.refl .owner sys.scheduler).turn [.applying id x]
  have hsane' : t.scheduler.Sane := (step_move hstep).sane hsane
  have hx' : t.scheduler.Clashes id x message := by rw [ht]; exact hx
  obtain ⟨hopen, n, hclashing, hlook⟩ := step_clashes hsane' hb.own hx'
  let u : Scheduler := t.scheduler.setCalls .owner (.offering n x :: sys.scheduler.callsOf .owner)
  have hb' : Beside .owner [.offering n x] u sys.scheduler := hb.turn [.offering n x]
  have hu : u.Clashing id x message n := hclashing
  have hcharted : u.Charted := ((step_move hlook).sane hsane').charted
  obtain ⟨given, -, hgiven, hpanic⟩ := hu.step hcharted hb'.own
  obtain rfl := hgiven hopen
  refine ⟨_, _, step_yielded rfl hlook, step_yielded rfl hpanic, (hb'.turn []).same.symm, ?_⟩
  rw [hy]
  exact congrArg some hpost.symm

/-- With a pool, a request whose comparison with the pending input panics comes to the panic in the owner, which has called
or runs the job of the request, if the scheduler is not closed before. Nothing but the call and the job is gone then.
Whatever others did meanwhile, without the steps of the request the run is a run with the same events, to a state that
differs in nothing but what is left of the request, and once it has panicked both go on in the same ways. A backup, which
only reads, panics if a pending input cannot be copied, and with the message of such a copy. -/
theorem payload_panics_unseen (hstart : start.IsOpened) (hpool : start.scheduler.isSynchronous = false) :
    (∀ history sys, Run start history sys → ∀ id x message a t, sys.scheduler.Clashes id x message →
      (a = .apply .owner id x ∨ a = .run (.request id x)) → sys.step (.thread a) = some (t, []) → ∀ refusal refusal',
      ∃ u v, t.step (.thread (.advance .owner refusal)) = some (u, []) ∧
        u.step (.thread (.advance .owner refusal')) = some (v, [.panicked .owner message]) ∧
        sys.scheduler.Same v.scheduler ∧ sys.loop.yield a = some v.loop) ∧
    (∀ id x message history others sys, Request start id x .applying history others sys →
      sys.scheduler.Clashes id x message → ∀ refusal, ∃ t, sys.step (.thread (.advance .owner refusal)) = some (t, [])) ∧
    (∀ id x message stage history others sys, Breaking start id x message stage history others sys →
      others.Sublist history ∧
      (stage = .offering → sys.scheduler.isClosed = false → ∀ refusal, ∃ t,
        sys.step (.thread (.advance .owner refusal)) = some (t, [.panicked .owner message])) ∧
      ∃ sys', Run start others sys' ∧ sys'.scheduler = { sys.scheduler with calls := sys'.scheduler.calls } ∧
        sys'.loop = sys.loop ∧
        (stage = .answered → ∀ later, (∀ t, Run sys later t → ∃ t', Run sys' later t' ∧ Alike t t') ∧
          ∀ t', Run sys' later t' → ∃ t, Run sys later t ∧ Alike t t')) ∧
    ∀ history sys, Run start history sys →
      (∀ message, sys.scheduler.backup .owner = .error message →
        ∃ id y, sys.scheduler.pendingInput id = some y ∧ y.copy = .error message) ∧
      ∀ id y message, sys.scheduler.pendingInput id = some y → y.copy = .error message →
        ∃ other, sys.scheduler.backup .owner = .error other := by
  have hsane {history : List Moment} {sys : System} (hrun : Run start history sys) : sys.scheduler.Sane :=
    (hrun.reachable hstart).sane (hrun.synchronous.trans hpool)
  refine ⟨fun history sys hrun id x message a t hx ha hs => call_clashes (hsane hrun) hx ha hs, ?_, ?_,
    fun history sys hrun => (hsane hrun).charted.backup_error⟩
  · intro id x message history others sys h hx refusal
    obtain ⟨sys', -, -, hw⟩ := h.without hstart hpool
    cases hw with
    | applying hb =>
        obtain ⟨-, n, -, hstep⟩ := step_clashes (hsane h.run) hb.own hx
        exact ⟨_, step_yielded rfl hstep⟩
  · intro id x message stage history others sys h
    obtain ⟨sys', hrun, hp⟩ := h.past hstart hpool
    refine ⟨h.sublist, ?_, sys', hrun, ?_⟩
    · rintro rfl hopen refusal
      cases hp with
      | offering hb _ hx =>
          obtain ⟨events, -, hevents, hstep⟩ := hx.step (hsane h.run).charted hb.own
          obtain rfl := hevents hopen
          exact ⟨_, step_yielded rfl hstep⟩
    · cases hp with
      | offering hb hloop => exact ⟨hb.rest, hloop, nofun⟩
      | answered hb hloop =>
          have halike : Alike sys sys' := ⟨hb.same, hloop⟩
          refine ⟨hb.rest, hloop, fun _ later => ⟨fun t => halike.run, fun t' ht' => ?_⟩⟩
          obtain ⟨t, ht, halike'⟩ := halike.symm.run ht'
          exact ⟨t, ht, halike'.symm⟩

end System

end

namespace System

/-- Two actions have flights in the air. Another thread requests the first one, and the comparison panics; the pending
input of the second one cannot be copied. -/
theorem broken_request_unseen : ∃ start history others sys sys', IsOpened start ∧ start.scheduler.isSynchronous = false ∧
    Breaking start ⟨0⟩ (.fragile "c") "eq failed: ?a" .answered history others sys ∧ history.length = others.length + 5 ∧
    Run start others sys' ∧ Alike sys sys' ∧ ∃ message, sys.scheduler.backup .owner = .error message := by
  let empty : Plan := { executor := some .loop }
  let plan : Plan := (empty.register .get .fragile false).register .get .fragile false
  let start : System :=
    { scheduler :=
        { identity := "fragile", mode := .serial, registrations := plan.registrations
          pool := some (.create "courier-fragile" .serial) } }
  have hempty : Numbered empty.registrations := fun i r h => by cases h
  have hplan : Numbered plan.registrations := .register (.register hempty .get .fragile false) .get .fragile false
  have hstart : IsOpened start := ⟨plan, "fragile", "fragile", 1, start.scheduler, hplan, rfl, rfl⟩
  let acts : List SystemAct :=
    [ .thread (.apply .owner ⟨0⟩ (.fragile "?a")), .thread (.advance .owner none), .thread (.advance .owner none),
      .thread (.apply .owner ⟨1⟩ (.fragile "!b")), .thread (.advance .owner none), .thread (.advance .owner none) ]
  obtain ⟨earlier, sys₀, sys₁, sys₂, sys₃, sys₄, sys₅, hr, hsent, hposted, hreceived, hfound, hanswered, hopen, hclashes,
      hpending⟩ : ∃ earlier sys₀ sys₁ sys₂ sys₃ sys₄ sys₅,
      replay acts [] start = some (earlier, sys₀) ∧
      sys₀.step (.thread (.apply (.other 1) ⟨0⟩ (.fragile "c"))) = some (sys₁, []) ∧
      sys₁.step (.thread (.advance (.other 1) none))
        = some (sys₂, [.posted (.other 1) (.request ⟨0⟩ (.fragile "c")), .returned (.other 1)]) ∧
      sys₂.step (.thread (.run (.request ⟨0⟩ (.fragile "c")))) = some (sys₃, []) ∧
      sys₃.step (.thread (.advance .owner none)) = some (sys₄, []) ∧
      sys₄.step (.thread (.advance .owner none)) = some (sys₅, [.panicked .owner "eq failed: ?a"]) ∧
      sys₁.loop = {} ∧ sys₃.scheduler.pendingInput ⟨0⟩ = some (.fragile "?a") ∧
      sys₅.scheduler.pendingInput ⟨1⟩ = some (.fragile "!b") :=
    ⟨_, _, _, _, _, _, _, rfl, rfl, rfl, rfl, rfl, rfl, rfl, rfl, rfl⟩
  have hsend := Request.sent (x := .fragile "c") (replay_run .start hr) (by decide) hsent
  have hpost := hsend.posted (by rw [hopen]) hposted
  rw [hopen] at hpost
  have hreceive := Request.received hpost hreceived
  have hanswer := (Breaking.found hreceive ⟨_, hclashes, rfl⟩ hfound).answered hanswered
  obtain ⟨-, -, hunseen, hbackup⟩ := payload_panics_unseen hstart rfl
  obtain ⟨-, -, sys', hrun, -, -, hgoes⟩ := hunseen _ _ _ _ _ _ _ hanswer
  obtain ⟨t, ht, halike⟩ := (hgoes rfl []).1 sys₅ .start
  cases ht
  exact ⟨start, _, _, sys₅, sys', hstart, rfl, hanswer, rfl, hrun, halike,
    (hbackup _ _ hanswer.run).2 ⟨1⟩ _ _ hpending rfl⟩

end System

end SingleFlight
