import SingleFlight.Proofs.LastWrite
import SingleFlight.Proofs.Scheduler.Requests
import SingleFlight.Proofs.Snapshot

/-!
# What a backup holds

With a pool, a backup holds the requests that are open: those that were processed since the last delivery of their
action, with the input that was accepted last, and none once the scheduler is closed.
-/

namespace SingleFlight

open Scheduler

section

variable [Payloads]

namespace Scheduler

variable {s s' u : Scheduler} {act : SchedulerAct} {id : ActionId} {events : List SchedulerEvent}

/-- Only a call to close it closes a scheduler. -/
theorem Move.isClosed_iff (hm : Move s act s' events) :
    s'.isClosed = true ↔ s.isClosed = true ∨ ∃ c, act = .close c := by
  constructor
  · intro hclosed
    cases hm with
    | shut => exact .inr ⟨_, rfl⟩
    | _ => exact .inl hclosed
  · rintro (hclosed | ⟨c, rfl⟩)
    · exact hm.keeps.closed hclosed
    · cases hm with
      | shutAgain _ hclosed => exact hclosed
      | shut => rfl
      | turned ht => cases ht
      | worked _ _ _ _ hl => cases hl
      | idled hact => rcases hact with hact | ⟨-, _, hact⟩ <;> cases hact

/-! ## Reading a backup -/

/-- The pending inputs in the order of the flights in the air. -/
def pendingEntries (s : Scheduler) : List (ActionId × Payload) :=
  s.inFlight.filterMap fun (id, n) => (s.flights[n]?).map fun f => (id, f.input)

theorem pending_eq (s : Scheduler) : s.pending = .ofList s.pendingEntries := rfl

theorem Charted.entries (h : s.Charted) : s.pendingEntries.map Prod.fst = s.inFlight.map Prod.fst ∧
    ∀ id, Snapshot.lookup s.pendingEntries id = s.pendingInput id := by
  have hthere : ∀ l : List (ActionId × Nat), (∀ e ∈ l, ∃ f, s.flights[e.2]? = some f) →
      let entries := l.filterMap fun (id, n) => (s.flights[n]?).map fun f => (id, f.input)
      entries.map Prod.fst = l.map Prod.fst ∧ ∀ id, Snapshot.lookup entries id
        = ((l.find? (·.1 = id)).map (·.2)).bind fun n => (s.flights[n]?).map Flight.input := by
    intro l hl
    induction l with
    | nil => exact ⟨rfl, fun id => rfl⟩
    | cons e l ih =>
        obtain ⟨f, hf⟩ := hl e List.mem_cons_self
        obtain ⟨hids, hlook⟩ := ih fun x hx => hl x (List.mem_cons_of_mem _ hx)
        refine ⟨by simp [hf, hids], fun id => ?_⟩
        by_cases hid : e.1 = id
        · simp [hf, hid]
        · simpa [hf, hid] using hlook id
  refine hthere s.inFlight fun e he => ?_
  obtain ⟨f, -, hf, -⟩ := h.charted e.1 e.2 he
  exact ⟨f, hf⟩

theorem Charted.get?_pending (h : s.Charted) (id : ActionId) : s.pending.get? id = s.pendingInput id := by
  rw [pending_eq, Snapshot.get?_ofList_of_nodup (h.entries.1 ▸ h.distinct), h.entries.2]

theorem Charted.mem_pending {e : ActionId × Payload} (h : s.Charted) (he : e ∈ s.pending.entries) :
    ∃ (n : Nat) (f : Flight), s.flights[n]? = some f ∧ f.action = e.1 ∧ f.input = e.2 := by
  have hlook : s.pending.get? e.1 = some e.2 :=
    (Snapshot.lookup_eq_some (Snapshot.ofList_ascending s.pendingEntries).nodup).mpr he
  rw [h.get?_pending] at hlook
  obtain ⟨n, hn, hinput⟩ := Option.bind_eq_some_iff.mp hlook
  obtain ⟨f, hf, hinput⟩ := Option.map_eq_some_iff.mp hinput
  obtain ⟨g, -, hg, hact, -⟩ := h.charted e.1 n (mem_of_flightOf? hn)
  cases hf.symm.trans hg
  exact ⟨n, f, hf, hact, hinput⟩

/-- A backup depends on the pending inputs alone, and not on the order of the flights in the air. -/
theorem Charted.pending_congr (h : s.Charted) (hin : u.inFlight.Perm s.inFlight)
    (hinput : ∀ n : Nat, (u.flights[n]?).map Flight.input = (s.flights[n]?).map Flight.input) :
    u.pending = s.pending := by
  have hentries : u.pendingEntries
      = u.inFlight.filterMap fun (id, n) => (s.flights[n]?).map fun f => (id, f.input) := by
    unfold pendingEntries
    congr 1
    funext e
    have := congrArg (Option.map (Prod.mk e.1)) (hinput e.2)
    simpa [Option.map_map, Function.comp_def] using this
  have hperm : s.pendingEntries.Perm u.pendingEntries := hentries ▸ (hin.symm.filterMap _)
  rw [pending_eq, pending_eq, Snapshot.ofList_perm (h.entries.1 ▸ h.distinct) hperm]

end Scheduler

namespace System

variable {sys sys' : System} {history later : List Moment} {moment : Moment} {id : ActionId}

/-! ## Open requests -/

/-- The input of the last request of the action that started a flight or was not equal to the pending one, unless the
action was delivered since. -/
def openRequest (id : ActionId) : List Moment → Option Payload
  | [] => none
  | moment :: history =>
    match moment.events.findSome? (·.accepted? id) with
    | some input => some input
    | none => if moment.events.any (·.lands id) then none else openRequest id history

/-- A request of the action was processed since its last delivery. -/
def IsOpen (id : ActionId) (history : List Moment) : Prop :=
  ∃ later moment before, history = later ++ moment :: before ∧ (∃ e ∈ moment.events, e.processes id = true) ∧
    ∀ m ∈ later, ∀ e ∈ m.events, e.lands id = false

/-- A thread made a call to close the scheduler. -/
def WasClosed (history : List Moment) : Prop := ∃ moment ∈ history, ∃ c, moment.act = .thread (.close c)

theorem isOpen_cons : IsOpen id (moment :: history) ↔
    (∃ e ∈ moment.events, e.processes id = true) ∨
      (∀ e ∈ moment.events, e.lands id = false) ∧ IsOpen id history := by
  constructor
  · rintro ⟨later, m, before, hsplit, hproc, hno⟩
    cases later with
    | nil => obtain ⟨rfl, -⟩ := List.cons.inj hsplit; exact .inl hproc
    | cons x later =>
        obtain ⟨rfl, rfl⟩ := List.cons.inj hsplit
        exact .inr ⟨hno _ List.mem_cons_self, later, m, before, rfl, hproc,
          fun m hm => hno m (List.mem_cons_of_mem _ hm)⟩
  · rintro (hproc | ⟨hmoment, later, m, before, rfl, hproc, hno⟩)
    · exact ⟨[], moment, history, rfl, hproc, by simp⟩
    · refine ⟨moment :: later, m, before, rfl, hproc, fun x hx => ?_⟩
      rcases List.mem_cons.mp hx with rfl | hx
      · exact hmoment
      · exact hno x hx

theorem Reachable.isClosed_iff (h : Reachable history sys) : sys.scheduler.isClosed = true ↔ WasClosed history := by
  refine h.invariant (P := fun history sys => sys.scheduler.isClosed = true ↔ WasClosed history) (fun sys hb => ?_) ?_
  · simp [hb.isClosed, WasClosed]
  · intro history sys act sys' events _ ih hs
    have hcons : WasClosed ({ act, events } :: history) ↔
        (∃ c, act = .thread (.close c)) ∨ WasClosed history := by simp [WasClosed]
    rw [hcons, ← ih]
    rcases step_cases hs with ⟨rfl, rfl, rfl⟩ | ⟨a, loop, rfl, -, hm, -⟩
    · simp
    · rw [hm.isClosed_iff, or_comm]
      simp

/-- The pending inputs are the open requests. -/
theorem Reachable.open_requests (h : Reachable history sys) (hpool : sys.scheduler.isSynchronous = false)
    (hopen : sys.scheduler.isClosed = false) (id : ActionId) :
    sys.scheduler.pendingInput id = openRequest id history ∧
      ((openRequest id history).isSome = true ↔ IsOpen id history) := by
  refine h.sane_invariant (P := fun history sys => sys.scheduler.isClosed = false →
    sys.scheduler.pendingInput id = openRequest id history ∧
      ((openRequest id history).isSome = true ↔ IsOpen id history)) ?_ ?_ hpool hopen
  · intro sys hb _
    simp [Scheduler.pendingInput, Scheduler.flightOf?, hb.inFlight, openRequest, IsOpen]
  · intro history sys act sys' events _ hs ih hstep hopen
    rw [isOpen_cons]
    rcases step_cases hstep with ⟨rfl, rfl, rfl⟩ | ⟨a, loop, rfl, -, hm, -⟩
    · simpa [openRequest] using ih hopen
    · obtain ⟨ihinput, ihopen⟩ := ih (hm.keeps.opened hopen)
      cases hm.serving hs hopen id with
      | aside hsame hplain =>
          have hacc : events.findSome? (·.accepted? id) = none :=
            List.findSome?_eq_none_iff.mpr fun e he => (hplain e he).1
          have hland : events.any (·.lands id) = false := by
            simpa using fun e he => (hplain e he).2.2
          have hproc : ¬ ∃ e ∈ events, e.processes id = true := by
            rintro ⟨e, he, hp⟩
            rw [(hplain e he).2.1] at hp
            cases hp
          refine ⟨by simp [openRequest, hacc, hland, hsame, ihinput], ?_⟩
          simp only [openRequest, hacc, hland, Bool.false_eq_true, ↓reduceIte, hproc, false_or]
          exact ihopen.trans ⟨fun h => ⟨fun e he => (hplain e he).2.2, h⟩, And.right⟩
      | accepted hinput hacc hproc _ =>
          exact ⟨by simp [openRequest, hacc, hinput], by simp [openRequest, hacc, hproc]⟩
      | coalesced hsame hsome hplain hproc =>
          have hacc : events.findSome? (·.accepted? id) = none :=
            List.findSome?_eq_none_iff.mpr fun e he => (hplain e he).1
          have hland : events.any (·.lands id) = false := by
            simpa using fun e he => (hplain e he).2
          refine ⟨by simp [openRequest, hacc, hland, hsame, ihinput], ?_⟩
          simp only [openRequest, hacc, hland, Bool.false_eq_true, ↓reduceIte]
          exact ⟨fun _ => .inl hproc, fun _ => ihinput ▸ hsome⟩
      | landed hnone hplain hland =>
          have hacc : events.findSome? (·.accepted? id) = none :=
            List.findSome?_eq_none_iff.mpr fun e he => (hplain e he).1
          have hany : events.any (·.lands id) = true := List.any_eq_true.mpr hland
          refine ⟨by simp [openRequest, hacc, hany, hnone], ?_⟩
          simp only [openRequest, hacc, hany, ↓reduceIte, Option.isSome_none, Bool.false_eq_true, false_iff, not_or,
            not_and]
          refine ⟨?_, fun hno => ?_⟩
          · rintro ⟨e, he, hp⟩
            rw [(hplain e he).2] at hp
            cases hp
          · obtain ⟨e, he, hl⟩ := hland
            rw [hno e he] at hl
            cases hl

/-! ## Backups -/

theorem Reachable.copies (h : Reachable history sys) (hpool : sys.scheduler.isSynchronous = false)
    (hcopy : Copyable history) : sys.scheduler.pending.copy = .ok sys.scheduler.pending.copied := by
  have hcharted := (h.sane hpool).charted
  have hfed := h.fed (P := fun _ input => ∃ copy, input.copy = .ok copy) hpool
    fun m hm c id input _ hact _ _ => hcopy m hm c id input hact
  refine Snapshot.copy_eq_copied fun e he => ?_
  obtain ⟨n, f, hf, -, hinput⟩ := hcharted.mem_pending he
  exact hinput ▸ hfed.1.flights n f hf

/-- With a pool, as long as inputs can be copied, the owner can back up the scheduler at any time. The backup is empty
once the scheduler is closed; until then it holds the actions with a request since their last delivery, each with a
copy of the input of the last request that started a flight or was not equal to the pending one. Any scheduler with the
same pending inputs has the same backup, whatever the order and the phases of its flights. -/
theorem backup_open_requests (h : Reachable history sys) (hpool : sys.scheduler.isSynchronous = false)
    (hcopy : Copyable history) :
    ∃ saved, sys.scheduler.backup .owner = .ok saved ∧
      (WasClosed history → saved = .empty) ∧
      (¬ WasClosed history → ∀ id, saved.get? id = (openRequest id history).map Erased.copied ∧
        (id ∈ saved.ids ↔ IsOpen id history)) ∧
      ∀ u : Scheduler, u.inFlight.Perm sys.scheduler.inFlight →
        (∀ n : Nat, (u.flights[n]?).map Flight.input = (sys.scheduler.flights[n]?).map Flight.input) →
        u.backup .owner = .ok saved := by
  have hcharted := (h.sane hpool).charted
  have hbackup (u : Scheduler) : u.backup .owner = u.pending.copy := by simp [backup, mayLook]
  refine ⟨sys.scheduler.pending.copied, (hbackup _).trans (h.copies hpool hcopy), fun hclosed => ?_, fun hopen id => ?_,
    fun u hin hinput => ?_⟩
  · have hnone := hcharted.emptied (h.isClosed_iff.mpr hclosed)
    simp [pending, hnone, Snapshot.ofList, Snapshot.copied, Snapshot.empty]
  · have hopen : sys.scheduler.isClosed = false := by
      simpa using fun hclosed => hopen (h.isClosed_iff.mp hclosed)
    obtain ⟨hinput, hiff⟩ := h.open_requests hpool hopen id
    have hget := (hcharted.get?_pending id).trans hinput
    rw [Snapshot.get?_copied, Snapshot.ids_copied, Snapshot.mem_ids, hget]
    exact ⟨rfl, hiff⟩
  · rw [hbackup, hcharted.pending_congr hin hinput, h.copies hpool hcopy]

end System

end

namespace System

/-- The flight has its outcome and was handed back when a newer input comes, and the owner has run the stale job. -/
theorem rearmed_input_backed_up : ∃ history sys saved, Reachable history sys ∧
    sys.scheduler.isSynchronous = false ∧ Copyable history ∧ ¬ WasClosed history ∧
    sys.scheduler.backup .owner = .ok saved ∧ saved.get? ⟨0⟩ = some (.string "b") ∧ IsOpen ⟨0⟩ history := by
  let acts : List SystemAct :=
    [ .thread (.apply .owner ⟨0⟩ (.string "a")), .thread (.advance .owner none), .thread (.advance .owner none),
      .thread (.advance (.worker 1) none), .thread (.advance (.worker 1) none), .thread (.advance (.worker 1) none),
      .thread (.advance (.worker 1) none), .thread (.reply (.worker 1) (.value none)),
      .thread (.advance (.worker 1) none), .thread (.advance (.worker 1) none), .thread (.advance (.worker 1) none),
      .thread (.advance (.worker 1) none), .thread (.apply .owner ⟨0⟩ (.string "b")), .thread (.advance .owner none),
      .thread (.advance .owner none), .thread (.advance .owner none), .thread (.run (.handBack 0)),
      .thread (.advance .owner none) ]
  obtain ⟨history, sys, hr, hpool, hinputs, hclosed, hopen⟩ : ∃ history sys,
      replay acts [] (small true) = some (history, sys) ∧ sys.scheduler.isSynchronous = false ∧
      (history.all fun m => match m.act with
        | .thread (.apply _ _ input) => input == .string "a" || input == .string "b"
        | _ => true) = true ∧
      (history.all fun m => match m.act with
        | .thread (.close _) => false
        | _ => true) = true ∧
      openRequest ⟨0⟩ history = some (.string "b") := ⟨_, _, rfl, rfl, rfl, rfl, rfl⟩
  have hreach := replay_reachable (small_reachable true) hr
  have hcopy : Copyable history := by
    intro m hm c id input hact
    have := List.all_eq_true.mp hinputs m hm
    rw [hact] at this
    rcases Bool.or_eq_true_iff.mp this with e | e <;> exact ⟨_, by rw [eq_of_beq e]; rfl⟩
  have hnot : ¬ WasClosed history := by
    rintro ⟨m, hm, c, hact⟩
    have := List.all_eq_true.mp hclosed m hm
    rw [hact] at this
    cases this
  obtain ⟨saved, hbackup, -, hget, -⟩ := backup_open_requests hreach hpool hcopy
  obtain ⟨hinput, hiff⟩ := hget hnot ⟨0⟩
  have hsaved : saved.get? ⟨0⟩ = some (.string "b") := by rw [hinput, hopen]; rfl
  refine ⟨history, sys, saved, hreach, hpool, hcopy, hnot, hbackup, hsaved, hiff.mp ?_⟩
  rw [Snapshot.mem_ids, hsaved]
  rfl

end System

end SingleFlight
