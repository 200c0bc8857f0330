import SingleFlight.Proofs.Drained
import SingleFlight.Proofs.Scheduler.Line
import SingleFlight.Proofs.Scheduler.Twins

/-!
# One call more

Two schedulers that differ in what one thread still has to do. All other threads take the same steps in both. The call
of a request comes and goes without a trace if the input meets an equal one.
-/

namespace SingleFlight

variable [Payloads]

/-- Whether the event tells of more than a request that comes to nothing. -/
def SchedulerEvent.hasEffect : SchedulerEvent → Bool
  | .returned _ => false
  | .posted _ _ => false
  | .coalesced _ _ => false
  | .dropped _ _ => false
  | _ => true

namespace Scheduler

/-- Only the calls differ, and they by what the thread still has to do in the first scheduler on top of those that it
has in both. -/
structure Beside (c : Caller) (more : List Call) (s s' : Scheduler) : Prop where
  rest : s' = s.withCalls s'.calls
  own : s.callsOf c = more ++ s'.callsOf c
  others : ∀ d, d ≠ c → s'.callsOf d = s.callsOf d

/-- The pending input of the action is equal to the given one. -/
def Awaits (s : Scheduler) (id : ActionId) (x : Payload) : Prop :=
  ∃ y, s.pendingInput id = some y ∧ y.compare x = .ok true

variable {s s' t : Scheduler} {act : SchedulerAct} {c : Caller} {n : Nat} {id : ActionId} {f : Flight} {x : Payload}
  {more rest : List Call} {events : List SchedulerEvent}

/-! ## Side by side -/

theorem Beside.refl (c : Caller) (s : Scheduler) : Beside c [] s s := ⟨rfl, rfl, fun _ _ => rfl⟩

theorem Beside.same (h : Beside c [] s s') : s.Same s' := by
  refine ⟨?_, fun d => ?_⟩
  · rw [h.rest]; rfl
  · by_cases hd : d = c
    · rw [hd]; exact h.own.symm
    · exact h.others d hd

theorem Beside.anyone (h : Beside c [] s s') (d : Caller) : Beside d [] s s' :=
  ⟨h.rest, (h.same.calls d).symm, fun e _ => h.same.calls e⟩

/-- The thread gets on with what it has to do more. -/
theorem Beside.turn (h : Beside c more s s') (next : List Call) :
    Beside c next (s.setCalls c (next ++ s'.callsOf c)) s' := by
  refine ⟨h.rest, callsOf_setCalls_self .., fun d hd => ?_⟩
  rw [callsOf_setCalls, if_neg hd]
  exact h.others d hd

/-- Other threads, and the thread itself if it has nothing more to do, take the same steps in both. -/
theorem Beside.step (h : Beside c more s s') (hact : act.actor ≠ c ∨ more = []) (hs : s.step act = some (t, events)) :
    ∃ t', s'.step act = some (t', events) ∧ Beside c more t t' := by
  have hcalls : s'.callsOf act.actor = s.callsOf act.actor := by
    by_cases hc : act.actor = c
    · obtain rfl := hact.resolve_left (absurd hc)
      rw [hc]; exact h.own.symm
    · exact h.others _ hc
  have hrest := h.rest
  generalize hk : s'.calls = k at hrest
  subst hrest
  have htwins := twins_step hcalls
  rw [hs] at htwins
  cases hs' : (s.withCalls k).step act with
  | none => rw [hs'] at htwins; cases htwins
  | some r =>
      obtain ⟨t', events'⟩ := r
      rw [hs'] at htwins
      cases htwins with
      | some htwins =>
          obtain ⟨rfl, hrest, hown⟩ := htwins
          have hothers (d : Caller) (hd : d ≠ act.actor) : t.callsOf d = s.callsOf d := (step_move hs).others hd
          have hothers' (d : Caller) (hd : d ≠ act.actor) : t'.callsOf d = (s.withCalls k).callsOf d :=
            (step_move hs').others hd
          refine ⟨t', rfl, hrest, ?_, fun d hd => ?_⟩
          · by_cases hc : act.actor = c
            · obtain rfl := hact.resolve_left (absurd hc)
              rw [← hc]; exact hown.symm
            · rw [hothers c (Ne.symm hc), hothers' c (Ne.symm hc)]; exact h.own
          · by_cases hd' : d = act.actor
            · rw [hd']; exact hown
            · rw [hothers d hd', hothers' d hd']; exact h.others d hd

/-! ## The steps of a request -/

theorem step_apply (hpool : s.isSynchronous = false) (hs : s.step (.apply c id x) = some (t, [])) :
    t = s.setCalls c ((if c = .owner then .applying id x else .posting id x) :: s.callsOf c) := by
  simp only [Scheduler.step] at hs
  split at hs
  · simp only [apply, hpool, Option.some.injEq] at hs
    split at hs
    · cases hs
    · split at hs
      · cases hs
      · split at hs
        · cases hs
        · split at hs
          · contradiction
          · split at hs
            · rename_i hc; cases hs; rw [if_pos hc, hc]; rfl
            · rename_i hc; cases hs; rw [if_neg hc]; rfl
  · cases hs

theorem step_posting {refusal : Option IoError} (hcs : s.callsOf c = .posting id x :: rest) :
    s.step (.advance c refusal) = some (s.setCalls c rest, [.posted c (.request id x), .returned c]) := by
  simp only [Scheduler.step, advance, hcs, advanceCall, finish]
  rfl

theorem step_received (hs : s.step (.run (.request id x)) = some (t, events)) :
    t = s.setCalls .owner (.applying id x :: s.callsOf .owner) ∧ events = [] := by
  simp only [Scheduler.step] at hs
  split at hs
  · cases hs; exact ⟨rfl, rfl⟩
  · cases hs

theorem step_lapsed {refusal : Option IoError} (hcs : s.callsOf c = .applying id x :: rest) (hclosed : s.isClosed = true) :
    s.step (.advance c refusal) = some (s.setCalls c rest, [.dropped id .schedulerClosed, .returned c]) := by
  simp only [Scheduler.step, advance, hcs, advanceCall, lookUp, hclosed, finish]
  rfl

/-- A request that finds a pending input is offered to its flight. -/
theorem step_pending {refusal : Option IoError} (hs : s.Sane) (hcs : s.callsOf .owner = .applying id x :: rest) {y : Payload}
    (hy : s.pendingInput id = some y) : s.isClosed = false ∧ ∃ n f, (id, n) ∈ s.inFlight ∧ s.flights[n]? = some f ∧
      f.input = y ∧ s.step (.advance .owner refusal) = some (s.setCalls .owner (.offering n x :: rest), []) := by
  obtain ⟨n, hn, hy⟩ := Option.bind_eq_some_iff.mp hy
  obtain ⟨f, hf, rfl⟩ := Option.map_eq_some_iff.mp hy
  have hopen : s.isClosed = false := by
    cases hclosed : s.isClosed with
    | false => rfl
    | true =>
        have := mem_of_flightOf? hn
        rw [hs.charted.emptied hclosed] at this
        cases this
  refine ⟨hopen, n, f, mem_of_flightOf? hn, hf, rfl, ?_⟩
  simp only [Scheduler.step, advance, hcs, advanceCall, lookUp, hopen, hn, goOn]
  rfl

/-- A request that meets an equal input is offered to its flight. -/
theorem step_awaited {refusal : Option IoError} (hs : s.Sane) (hcs : s.callsOf .owner = .applying id x :: rest)
    (hx : s.Awaits id x) : ∃ n f, s.flights[n]? = some f ∧ f.input.compare x = .ok true ∧
      s.step (.advance .owner refusal) = some (s.setCalls .owner (.offering n x :: rest), []) := by
  obtain ⟨y, hy, hxy⟩ := hx
  obtain ⟨-, n, f, -, hf, rfl, hstep⟩ := step_pending hs hcs hy
  exact ⟨n, f, hf, hxy, hstep⟩

/-- A flight with an equal input stays as it is, closed or not. -/
theorem step_equal {refusal : Option IoError} (hcs : s.callsOf c = .offering n x :: rest) (hf : s.flights[n]? = some f)
    (hx : f.input.compare x = .ok true) : ∃ events, events.filter SchedulerEvent.hasEffect = [] ∧
      events.filterMap SchedulerEvent.job? = [] ∧
      s.step (.advance c refusal) = some (s.setCalls c rest, events) := by
  by_cases hc : f.phase = .closed
  · refine ⟨[.dropped f.action .flightClosed, .returned c], rfl, rfl, ?_⟩
    simp only [Scheduler.step, advance, hcs, advanceCall, offer, hf, Flight.offer, hc, Option.map_some, if_true,
      setFlight_self hf, finish]
    rfl
  · refine ⟨[.coalesced n f.action, .returned c], rfl, rfl, ?_⟩
    simp only [Scheduler.step, advance, hcs, advanceCall, offer, hf, Flight.offer, hc, hx, Option.map_some, if_false,
      setFlight_self hf, finish]
    rfl

/-! ## Inputs that stay -/

/-- With a pool, only the owner changes inputs. -/
theorem Move.inputs_aside (hm : Move s act t events) (hs : s.Sane) (hact : act.actor ≠ .owner) (n : Nat) :
    inputs n events = [] := by
  have howner {c : Caller} {y : Call} {rest : List Call} {refusal : Option IoError} (h : act = .advance c refusal)
      (hcs : s.callsOf c = y :: rest) (hy : y.suits false c = true → c = .owner) : False := by
    subst h
    exact hact (hs.regular.orderly.owner hs.pooled hcs hy)
  rw [inputs, List.filterMap_eq_nil_iff]
  intro e he
  cases e with
  | queued =>
      cases hm.news he rfl with
      | queued hcs => exact (howner rfl hcs (by simp [Call.suits])).elim
  | superseded =>
      cases hm.news he rfl with
      | superseded hcs => exact (howner rfl hcs (by simp [Call.suits])).elim
  | rearmed =>
      cases hm.news he rfl with
      | rearmed hcs => exact (howner rfl hcs (by simp [Call.suits])).elim
  | _ => rfl

theorem Move.input_aside (hm : Move s act t events) (hs : s.Sane) (hact : act.actor ≠ .owner)
    (hf : s.flights[n]? = some f) : ∃ g, t.flights[n]? = some g ∧ g.input = f.input := by
  obtain ⟨g, hg, -⟩ := hm.persists hf
  have hnewest := (hm.course hs n).newest
  rw [hf, hg, hm.inputs_aside hs hact n] at hnewest
  exact ⟨g, hg, Option.some.inj hnewest⟩

theorem Move.coalesced (hm : Move s act t events) (he : .coalesced n id ∈ events) :
    ∃ c y f rest, s.callsOf c = .offering n y :: rest ∧ s.flights[n]? = some f ∧ f.action = id ∧ f.phase ≠ .closed ∧
      f.input.compare y = .ok true := by
  have hnone (h : ∀ e ∈ events, e.isAside = true) : False := by cases h _ he
  cases hm with
  | turned ht =>
      generalize hcs : s.callsOf _ = cs at ht
      cases ht with
      | coalesced hf hc hcmp =>
          obtain ⟨rfl, rfl⟩ : n = _ ∧ id = _ := by simpa using he
          exact ⟨_, _, _, _, hcs, hf, rfl, hc, hcmp⟩
      | _ => simp at he
  | submitted => exact (hnone (submission_aside _ _ _)).elim
  | worked _ _ _ _ hl => exact (hnone hl.aside).elim
  | ranInline _ _ hr =>
      rcases List.mem_append.mp he with he | he
      · cases hr.aside _ he
      · rename_i next _ _ _ _
        cases next <;> simp [RunStep.faults] at he
  | idled | halted => exact (hnone (pooled_aside _)).elim
  | _ => simp at he

/-- An input that the owner has taken up is the pending one, or equal to it. -/
theorem Move.takes_up (hm : Move s act t events) (hs : s.Sane) (hopen : t.isClosed = false)
    (hasking : s.asking id = some x) (hproc : ∃ e ∈ events, e.processes id = true) (hrefl : x.compare x = .ok true) :
    t.Awaits id x := by
  have ho := hs.regular.orderly
  -- the owner has no other input in hand
  have howns {c : Caller} {y : Call} {rest : List Call} (hcs : s.callsOf c = y :: rest)
      (hy : y.suits false c = true → c = .owner) : s.asks? id y = some x := by
    obtain rfl := ho.owner hs.pooled hcs hy
    rw [← ho.asking hcs, hasking]
  have hoffered {c : Caller} {n : Nat} {y : Payload} {f : Flight} {rest : List Call}
      (hcs : s.callsOf c = .offering n y :: rest) (hf : s.flights[n]? = some f) (hid : f.action = id) : y = x := by
    simpa [asks?, hf, hid] using howns hcs (by simp [Call.suits])
  cases hm.serving hs hopen id with
  | aside _ h =>
      obtain ⟨e, he, hp⟩ := hproc
      cases (h e he).2.1.symm.trans hp
  | @accepted input hpending hfound =>
      obtain ⟨e, he, hacc⟩ := List.exists_of_findSome?_eq_some hfound
      have hinput : input = x := by
        cases e with
        | queued n action kind y =>
            simp only [SchedulerEvent.accepted?, Option.ite_none_right_eq_some, Option.some.injEq] at hacc
            obtain ⟨rfl, rfl⟩ := hacc
            cases hm.news he rfl with
            | queued hcs => simpa [asks?] using howns hcs (by simp [Call.suits])
        | superseded n action y generation =>
            simp only [SchedulerEvent.accepted?, Option.ite_none_right_eq_some, Option.some.injEq] at hacc
            obtain ⟨rfl, rfl⟩ := hacc
            cases hm.news he rfl with
            | superseded hcs hf => exact hoffered hcs hf rfl
        | rearmed n action y generation =>
            simp only [SchedulerEvent.accepted?, Option.ite_none_right_eq_some, Option.some.injEq] at hacc
            obtain ⟨rfl, rfl⟩ := hacc
            cases hm.news he rfl with
            | rearmed hcs hf => exact hoffered hcs hf rfl
        | _ => cases hacc
      exact ⟨input, hpending, hinput ▸ hrefl⟩
  | coalesced hkept _ hnone =>
      obtain ⟨e, he, hp⟩ := hproc
      cases e with
      | coalesced n action =>
          obtain rfl : action = id := by simpa [SchedulerEvent.processes] using hp
          obtain ⟨c, y, f, rest, hcs, hf, rfl, hc, hcmp⟩ := hm.coalesced he
          obtain rfl := hoffered hcs hf rfl
          obtain ⟨-, hpending⟩ := hs.charted.pendingInput (hm.keeps.opened hopen) hf hc
          exact ⟨f.input, hkept.trans hpending, hcmp⟩
      | queued | superseded | rearmed =>
          have := (hnone _ he).1
          simp_all [SchedulerEvent.processes, SchedulerEvent.accepted?]
      | _ => cases hp
  | landed _ h =>
      obtain ⟨e, he, hp⟩ := hproc
      cases (h e he).2.symm.trans hp

/-- An input stays pending until another one is accepted or the outcome is taken for its delivery. -/
theorem Awaits.move (h : s.Awaits id x) (hm : Move s act t events) (hs : s.Sane) (hopen : t.isClosed = false)
    (hquiet : Quiet id events) (hlands : ∀ e ∈ events, e.lands id = false) : t.Awaits id x := by
  obtain ⟨y, hy, hxy⟩ := h
  cases hm.serving hs hopen id with
  | aside hkept | coalesced hkept => exact ⟨y, hkept.trans hy, hxy⟩
  | accepted _ hfound =>
      obtain ⟨e, he, hacc⟩ := List.exists_of_findSome?_eq_some hfound
      cases (hquiet e he).symm.trans hacc
  | landed _ _ h =>
      obtain ⟨e, he, hland⟩ := h
      cases (hlands e he).symm.trans hland

end Scheduler

end SingleFlight
