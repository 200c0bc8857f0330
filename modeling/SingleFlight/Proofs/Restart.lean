import SingleFlight.Proofs.Restoring

/-!
# Backup, close, restore

What a backup saves is delivered by the scheduler that is built with it, once for each action and with the outcome of
the input that was saved, and not by the scheduler that was backed up and closed.
-/

namespace SingleFlight

open Scheduler

section

variable [Payloads]

namespace Plan

/-- The plan registers actions of these kinds with these types of inputs, in this order, for a pool with valid settings
whose queue has a place for every action. -/
structure TakesOver (q : Plan) (processors : Nat) (registrations : List Registration) : Prop where
  numbered : Numbered q.registrations
  alike : q.registrations.map (fun r => (r.kind, r.inputType)) = registrations.map fun r => (r.kind, r.inputType)
  executor : q.executor ≠ none
  settings : ∃ settings, q.poolSettings processors = .ok settings ∧ settings.validate = .ok () ∧
    q.registrations.length ≤ settings.capacity

variable {q : Plan} {processors : Nat} {registrations : List Registration} {id : ActionId} {input : Payload}

theorem TakesOver.opens (h : q.TakesOver processors registrations) (identity tag : String) :
    ∃ s, q.opening identity tag processors = .opened s ∧ s.registrations = q.registrations ∧
      ∃ name settings, s.pool = some (.create name settings) ∧ q.registrations.length ≤ settings.capacity := by
  obtain ⟨settings, hsettings, hvalid, hcapacity⟩ := h.settings
  have hexecutor : q.executor.isNone = false := by
    cases he : q.executor with
    | none => exact absurd he h.executor
    | some _ => rfl
  refine ⟨{ identity, mode := q.mode, registrations := q.registrations
            pool := some (.create (settings.namePrefix ++ "-" ++ tag) settings) }, ?_, rfl, _, settings, rfl, hcapacity⟩
  simp [Plan.opening, hexecutor, hsettings, hvalid]

theorem TakesOver.usable (h : q.TakesOver processors registrations) (hu : System.Usable registrations id input) :
    System.Usable q.registrations id input := by
  obtain ⟨hcopy, r, hr, hacc⟩ := hu
  have halike := congrArg (·[id.index]?) h.alike
  simp only [List.getElem?_map, hr, Option.map_some, Option.map_eq_some_iff] at halike
  obtain ⟨r', hr', e⟩ := halike
  refine ⟨hcopy, r', hr', ?_⟩
  rw [Registration.accepts, (Prod.mk.inj e).2]
  exact hacc

end Plan

namespace System

variable {sys sys' : System} {history : List Moment} {events : List SchedulerEvent} {id : ActionId}
  {entries : List (ActionId × Payload)} {saved : Snapshot Payload} {c c' : Construction} {x y : List Moment × System}
  {q : Plan}
  {identity tag : String} {processors : Nat} {s : Scheduler} {registrations : List Registration}

/-! ## What the second scheduler does -/

/-- The scheduler has the flights in the air that the first one had when it was backed up. -/
structure Restored (first : Scheduler) (saved : Snapshot Payload) (sys : System) : Prop where
  inFlight : ∀ id, sys.scheduler.isInFlight .owner id = first.isInFlight .owner id
  inputs : ∀ id, sys.scheduler.pendingInput id = saved.get? id
  backup : sys.scheduler.backup .owner = .ok saved.copied
  equal : (∀ e ∈ saved.toList, (Erased.copied e.2).compare e.2 = .ok true) → ∀ again,
    sys.scheduler.backup .owner = .ok again → again.compare saved = .ok true

/-- If nothing else is requested, every saved action is delivered once, with the outcome of the saved input. -/
structure Redelivers (saved : Snapshot Payload) (x : List Moment × System) : Prop where
  rests : Inevitably GoesOn (fun y => y.2.Quiescent ∧ y.2.scheduler.backup .owner = .ok .empty ∧
    ∀ id, tellings id y.1 = if id ∈ saved.ids then 1 else 0) x
  once : ∀ y, Relation.ReflTransGen GoesOn x y → ∀ id, tellings id y.1 ≤ 1
  rightly : ∀ y act sys' events, Relation.ReflTransGen GoesOn x y → act.isUnasked = true →
    y.2.step (.thread act) = some (sys', events) → ∀ c n id kind d, .notified c n id kind d ∈ events →
      c = .owner ∧ ∃ r o input, y.2.scheduler.registration? id = some r ∧ d = r.deliver o ∧
        saved.get? id = some input ∧ newest n y.1 = some input ∧ FromNewest r y.1 n o

theorem Settling.reached (h : Settling entries x.1 x.2) (hy : Relation.ReflTransGen GoesOn x y) :
    Settling entries y.1 y.2 := by
  induction hy with
  | refl => exact h
  | tail _ hnext ih => exact (ih.step hnext).1

theorem Settling.redelivers (h : Settling saved.toList x.1 x.2) (hnodup : (saved.toList.map Prod.fst).Nodup) :
    Redelivers saved x where
  rests := by
    refine .of_closer (Q := fun y => Settling saved.toList y.1 y.2) (InvImage.wf Prod.snd closer_wf) (fun y hy => ?_)
      (fun y z hy hnext => hy.step hnext) h
    refine hy.steady.goes_on.imp_left fun hq => ⟨hq, backup_of_empty ?_, fun id => (hy.told hnodup id).2 hq⟩
    refine List.eq_nil_iff_forall_not_mem.mpr fun e he => ?_
    exact not_mem_of_flightOf? (hy.steady.none_in_flight hq e.1) he
  once y hy id := ((h.reached hy).told hnodup id).1
  rightly y act sys' events hy hact hstep c n id kind d he := by
    have hsettling := h.reached hy
    obtain ⟨loop, -, hm, -⟩ := step_thread_cases hstep
    obtain ⟨hc, f, r, o, hf, hact, hr, hd, hnewest, hfrom⟩ := hsettling.steady.notified hm he
    refine ⟨hc, r, o, f.input, hr, hd, (Snapshot.lookup_eq_some hnodup).mpr ?_, hnewest, hfrom⟩
    show (id, f.input) ∈ saved.toList
    rw [← hact, ← hsettling.served]
    exact mem_served.mpr ⟨n, f, hf, rfl⟩

/-! ## Backup and restore -/

theorem Constructing.reached (h : Constructing entries c) (hnodup : (entries.map Prod.fst).Nodup)
    (hc : Relation.ReflTransGen Construction.Next c c') : Constructing entries c' := by
  induction hc with
  | refl => exact h
  | tail _ hnext ih => exact ih.next hnodup hnext

theorem constructing_of_opening (hq : q.TakesOver processors registrations)
    (husable : ∀ e ∈ entries, Usable registrations e.1 e.2) (identity tag : String) :
    ∃ s, q.opening identity tag processors = .opened s ∧ Constructing entries ⟨entries, [], { scheduler := s }⟩ := by
  obtain ⟨s, hopen, hregs, name, settings, hpool, hcapacity⟩ := hq.opens identity tag
  have hbegins := Begins.of_opening hq.numbered hopen
  have hreach : Reachable [] { scheduler := s } := ⟨q, identity, tag, processors, s, hq.numbered, hopen, .start⟩
  have hsync : s.isSynchronous = false := by simp [isSynchronous, hpool]
  refine ⟨s, hopen, hbegins.steady hreach hsync, fun p hp => ?_, by simp [hbegins.callsOf], ?_, fun e he => ?_, fun _ => rfl,
    by simp⟩
  · cases hpool.symm.trans hp
    rw [hregs]
    exact hcapacity
  · have hserved : s.served = [] := by rw [Scheduler.served, hbegins.flights]; rfl
    have hasked : s.asked = [] := by rw [Scheduler.asked, hbegins.callsOf]; rfl
    show s.served ++ s.asked ++ entries = entries
    rw [hserved, hasked]
    rfl
  · show Usable s.registrations e.1 e.2
    rw [hregs]
    exact hq.usable (husable e he)

theorem isInFlight_eq (h : s.Charted) (id : ActionId) :
    s.isInFlight .owner id = .ok (s.pendingInput id).isSome := by
  have hlook : s.mayLook .owner = true := by simp [mayLook]
  rw [isInFlight, if_pos hlook, Scheduler.pendingInput]
  cases hflight : s.flightOf? id with
  | none => rfl
  | some n =>
      obtain ⟨f, -, hf, -⟩ := h.charted id n (mem_of_flightOf? hflight)
      simp [hf]

theorem pending_ascending (s : Scheduler) : Snapshot.Ascending s.pending.entries :=
  Snapshot.ofList_ascending s.pendingEntries

/-- A scheduler that was built with copies of the inputs that another one has pending has these pending. -/
theorem Constructing.restored (h : Constructing s.pending.copied.toList c) (hdone : c.IsDone) (hs : s.Charted) :
    Restored s s.pending.copied c.sys := by
  have hcharted := h.steady.sane.charted
  have hascending := (pending_ascending s).copied
  have hinputs (id : ActionId) : c.sys.scheduler.pendingInput id = s.pending.copied.get? id :=
    h.pendingInput hdone hascending.nodup id
  have hpending : c.sys.scheduler.pending = s.pending.copied := by
    refine Snapshot.ext_get (pending_ascending _) hascending fun id => ?_
    rw [hcharted.get?_pending, hinputs]
  have hbackup : c.sys.scheduler.backup .owner = .ok s.pending.copied.copied := by
    rw [← hpending, Scheduler.backup, if_pos (by simp [mayLook])]
    exact h.steady.reached.copies h.steady.pooled h.steady.copyable
  refine ⟨fun id => ?_, hinputs, hbackup, fun hsame again hagain => ?_⟩
  · rw [isInFlight_eq hcharted, isInFlight_eq hs, hinputs, Snapshot.get?_copied, hs.get?_pending, Option.isSome_map]
  · cases hbackup.symm.trans hagain
    exact Snapshot.compare_copied hsame

/-- No request had an input that cannot be copied, or whose copy cannot be copied. -/
def Recopyable (history : List Moment) : Prop :=
  ∀ moment ∈ history, ∀ c id input, moment.act = .thread (.apply c id input) →
    ∃ copy, input.copy = .ok copy ∧ ∃ again, copy.copy = .ok again

theorem Recopyable.copyable (h : Recopyable history) : Copyable history := fun moment hm c id input hact =>
  (h moment hm c id input hact).imp fun _ hcopy => hcopy.1

/-- The copies of the pending inputs can be requested of a scheduler with the same actions. -/
theorem Reachable.saved_usable (h : Reachable history sys) (hpool : sys.scheduler.isSynchronous = false)
    (hcopy : Recopyable history) :
    ∀ e ∈ sys.scheduler.pending.copied.toList, Usable sys.scheduler.registrations e.1 e.2 := by
  have hfed := h.fed (P := fun id input => (∃ copy, input.copy = .ok copy ∧ ∃ again, copy.copy = .ok again) ∧
    ∃ r, sys.scheduler.registrations[id.index]? = some r ∧ r.accepts input = true) hpool
    fun moment hm c id input r hact hr hacc => ⟨hcopy moment hm c id input hact, r, hr, hacc⟩
  intro _ hsaved
  obtain ⟨e, he, rfl⟩ := List.mem_map.mp hsaved
  obtain ⟨n, f, hf, hact, hinput⟩ := (h.sane hpool).charted.mem_pending he
  obtain ⟨⟨copy, hcopied, hagain⟩, r, hr, hacc⟩ := hfed.1.flights n f hf
  rw [hinput] at hcopied hacc
  exact ⟨(Payload.copied_of_copy hcopied).symm ▸ hagain, r, hact ▸ hr, Registration.accepts_copied hacc⟩

/-- Let the owner, outside of a scheduler with a pool whose inputs can be copied, and their copies as well, back it up
and close it before it runs another job. Then nothing is delivered any more from the backup on. A plan that takes over
its actions, and restores what was saved, is built without a panic, whatever its initial inputs and the order of the
steps; and then the same actions have flights in the air, with the inputs that were saved. If nothing else is requested,
each of these actions is delivered once, with the outcome of the input that was saved. -/
theorem saved_delivered_once (h : Reachable history sys) (hpool : sys.scheduler.isSynchronous = false)
    (hcopy : Recopyable history) (hfree : sys.scheduler.isFree .owner = true) :
    ∃ saved, sys.scheduler.backup .owner = .ok saved ∧
      (∀ between sys₁ events sys₂ later sys₃, Run sys between sys₁ →
        (∀ m ∈ between, ∀ job, m.act ≠ .thread (.run job)) →
        sys₁.step (.thread (.close .owner)) = some (sys₂, events) → Run sys₂ later sys₃ → ∀ n,
          deliveryCount n (later ++ { act := .thread (.close .owner), events } :: between) = 0 ∧
            notificationCount n (later ++ { act := .thread (.close .owner), events } :: between) = 0) ∧
      ∀ (q : Plan) identity tag processors, q.restored = some saved →
        q.TakesOver processors sys.scheduler.registrations →
        ∃ s, q.opening identity tag processors = .opened s ∧
          Inevitably Construction.Next Construction.IsDone ⟨q.requests, [], { scheduler := s }⟩ ∧
          ∀ c, Relation.ReflTransGen Construction.Next ⟨q.requests, [], { scheduler := s }⟩ c →
            (∀ m ∈ c.history, ∀ caller message, .panicked caller message ∉ m.events) ∧
            (c.IsDone → Restored sys.scheduler saved c.sys ∧ Redelivers saved (c.history, c.sys)) := by
  have hcharted := (h.sane hpool).charted
  have hnodup := (pending_ascending sys.scheduler).copied.nodup
  refine ⟨sys.scheduler.pending.copied, ?_, ?_, ?_⟩
  · rw [Scheduler.backup, if_pos (by simp [mayLook])]
    exact h.copies hpool hcopy.copyable
  · intro between sys₁ events sys₂ later sys₃ hbetween hquiet hclose hlater n
    exact h.never_delivered hpool hfree hbetween (fun m hm n => hquiet m hm (.handBack n)) hclose hlater n
  · intro q identity tag processors hrestored hq
    have hrequests : q.requests = sys.scheduler.pending.copied.toList := by rw [Plan.requests, hrestored]; rfl
    obtain ⟨s, hopened, hstart⟩ := constructing_of_opening hq (h.saved_usable hpool hcopy) identity tag
    rw [hrequests]
    refine ⟨s, hopened, hstart.ends hnodup, fun c hc => ?_⟩
    have hreached := hstart.reached hnodup hc
    refine ⟨hreached.calm, fun hdone => ⟨hreached.restored hdone hcharted, ?_⟩⟩
    exact Settling.redelivers (x := (c.history, c.sys)) (hreached.settling hdone) hnodup

end System

end

namespace System

/-- The small plan for a second start, with other settings and an initial input that does not count. -/
def secondPlan (saved : Snapshot Payload) : Plan :=
  { smallPlan (some .runtime) with
    settings := some { PoolSettings.serial with core := 0, max := 2, capacity := 1 }
    restored := some saved
    initial := .ofList [(⟨0⟩, .string "initial")] }

/-- The worker has handed back its flight, and the job is in the loop, when the owner backs up and closes. -/
theorem handed_back_redelivered : ∃ history sys saved, Reachable history sys ∧
    sys.scheduler.isSynchronous = false ∧ Recopyable history ∧ sys.scheduler.isFree .owner = true ∧
    sys.loop.queue = [.handBack 0] ∧ sys.scheduler.backup .owner = .ok saved ∧
    (secondPlan saved).requests = [(⟨0⟩, .string "a")] ∧
    (∃ sys₂ events, sys.step (.thread (.close .owner)) = some (sys₂, events) ∧ ∀ later sys₃, Run sys₂ later sys₃ →
      notificationCount 0 (later ++ [{ act := .thread (.close .owner), events }]) = 0) ∧
    ∃ s, (secondPlan saved).opening "second" "2" 4 = .opened s ∧
      Inevitably Construction.Next Construction.IsDone ⟨[(⟨0⟩, .string "a")], [], { scheduler := s }⟩ ∧
      ∀ c, Relation.ReflTransGen Construction.Next ⟨[(⟨0⟩, .string "a")], [], { scheduler := s }⟩ c → c.IsDone →
        Restored sys.scheduler saved c.sys ∧ Redelivers saved (c.history, c.sys) := by
  let acts : List SystemAct :=
    [ .thread (.apply .owner ⟨0⟩ (.string "a")), .thread (.advance .owner none), .thread (.advance .owner none),
      .thread (.advance (.worker 1) none), .thread (.advance (.worker 1) none), .thread (.advance (.worker 1) none),
      .thread (.advance (.worker 1) none), .thread (.reply (.worker 1) (.value none)),
      .thread (.advance (.worker 1) none), .thread (.advance (.worker 1) none), .thread (.advance (.worker 1) none),
      .thread (.advance (.worker 1) none) ]
  obtain ⟨history, sys, closed, events, hr, hpool, hacts, hfree, hjobs, hback, hclose, hregs⟩ :
      ∃ history sys closed events, replay acts [] (small true) = some (history, sys) ∧
        sys.scheduler.isSynchronous = false ∧
        history.reverse.map Moment.act = acts ∧
        sys.scheduler.isFree .owner = true ∧ sys.loop.queue = [.handBack 0] ∧
        sys.scheduler.backup .owner = .ok ⟨[(⟨0⟩, .string "a")]⟩ ∧
        sys.step (.thread (.close .owner)) = some (closed, events) ∧
        sys.scheduler.registrations = (smallPlan none).registrations :=
    ⟨_, _, _, _, rfl, rfl, rfl, rfl, rfl, rfl, rfl, rfl⟩
  have hreach := replay_reachable (small_reachable true) hr
  have hcopy : Recopyable history := by
    intro m hm c id input hact
    have hmem : m.act ∈ acts := hacts ▸ List.mem_map_of_mem (List.mem_reverse.mpr hm)
    obtain ⟨-, -, rfl⟩ : c = .owner ∧ id = ⟨0⟩ ∧ input = .string "a" := by simpa [acts, hact] using hmem
    exact ⟨_, rfl, _, rfl⟩
  obtain ⟨saved, hbackup, hsilent, hsecond⟩ := saved_delivered_once hreach hpool hcopy hfree
  cases hback.symm.trans hbackup
  have htakes : (secondPlan ⟨[(⟨0⟩, .string "a")]⟩).TakesOver 4 sys.scheduler.registrations := by
    rw [hregs]
    refine ⟨fun i r h => ?_, rfl, Option.some_ne_none _, _, rfl, rfl, Nat.le_refl 1⟩
    match i with
    | 0 => cases h; rfl
    | i + 1 => cases h
  obtain ⟨s, hopen, hends, hdone⟩ := hsecond (secondPlan _) "second" "2" 4 rfl htakes
  refine ⟨history, sys, _, hreach, hpool, hcopy, hfree, hjobs, hback, rfl,
    ⟨closed, events, hclose, fun later sys₃ hlater => ?_⟩, s, hopen, hends, fun c hc => (hdone c hc).2⟩
  exact (hsilent [] sys events closed later sys₃ .start (by simp) hclose hlater 0).2

end System

end SingleFlight
