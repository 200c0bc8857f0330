import SingleFlight.Proofs.History
import SingleFlight.Proofs.Scheduler.Invocations
import SingleFlight.Proofs.Scheduler.Owing

/-!
# After closing

Closing a scheduler does not take back what a thread already has in hand: the outcome that the owner took from its
flight, and without a pool the run of a flight at any stage. These outcomes still go to their callbacks, and no
others do.
-/

namespace SingleFlight

open Scheduler

namespace System

section

variable [Payloads] {sys sys' : System} {act : SystemAct} {history later : List Moment} {events : List SchedulerEvent}
  {c : Caller} {n : Nat} {x : Call}

/-! ## Runs -/

theorem Run.trans {sys₁ sys₂ sys₃ : System} {earlier later : List Moment} (h : Run sys₁ earlier sys₂)
    (k : Run sys₂ later sys₃) : Run sys₁ (later ++ earlier) sys₃ := by
  induction k with
  | start => exact h
  | step _ hs ih => exact ih.step hs

theorem Reachable.run (h : Reachable history sys) (k : Run sys later sys') : Reachable (later ++ history) sys' := by
  induction k with
  | start => exact h
  | step _ hs ih => exact ih.step hs

theorem Run.closed (h : Run sys later sys') (hclosed : sys.scheduler.isClosed = true) :
    sys'.scheduler.isClosed = true := by
  induction h with
  | start => exact hclosed
  | step _ hs ih => exact step_scheduler (P := fun s => s.isClosed = true) hs ih fun hm => hm.keeps.closed ih

/-- A step of the scheduler that runs no job is one of the whole. -/
theorem step_thread {a : SchedulerAct} {s : Scheduler} (hact : ∀ job, a ≠ .run job)
    (hs : sys.scheduler.step a = some (s, events)) :
    ∃ sys', sys.step (.thread a) = some (sys', events) ∧ sys'.scheduler = s :=
  ⟨_, step_yielded (OwnerLoop.yield_of_not_run hact) hs, rfl⟩

/-! ## Without a pool -/

theorem Begins.inline (h : sys.Begins) (hsync : sys.scheduler.isSynchronous = true) : sys.scheduler.Inline := by
  refine ⟨hsync, h.regular.orderly, h.numbered, h.inFlight, fun k hk => ?_,
    fun c x hx => ?_, fun c => ?_, fun c d n _ hn => ?_⟩
  · rw [h.closing] at hk; cases hk
  · rw [h.callsOf] at hx; cases hx
  · rw [h.callsOf]; exact .nil
  · rw [h.callsOf] at hn; cases hn

theorem Reachable.inline (h : Reachable history sys) (hsync : sys.scheduler.isSynchronous = true) :
    sys.scheduler.Inline := by
  refine h.invariant (P := fun _ sys => sys.scheduler.isSynchronous = true → sys.scheduler.Inline)
    (fun _ hb => hb.inline) ?_ hsync
  intro _ sys act sys' events _ ih hs
  refine step_scheduler (P := fun s => s.isSynchronous = true → s.Inline) hs ih fun hm hsync => ?_
  exact hm.inline (ih (hm.keeps.synchronous ▸ hsync))

/-! ## What is owed -/

/-- The thread has a call that will start a callback with the outcome of the flight, or may do so. -/
def Owes (sys : System) (c : Caller) (n : Nat) : Prop := ∃ x ∈ sys.scheduler.callsOf c, sys.scheduler.Owes n x

/-- With a pool, only an outcome that the owner took is owed. -/
theorem Owes.pooled (h : sys.Owes c n) (hs : sys.scheduler.Sane) :
    c = .owner ∧ ∃ o rest f r, sys.scheduler.callsOf .owner = .delivering n o :: rest ∧
      sys.scheduler.flights[n]? = some f ∧ sys.scheduler.registration? f.action = some r ∧
      (r.deliver o).callsBack = true := by
  obtain ⟨x, hx, ho⟩ := h
  have hsuits := (hs.regular.orderly c).suits x hx
  rw [hs.pooled] at hsuits
  cases x with
  | delivering m o =>
      obtain ⟨rfl, f, r, hf, hr, hback⟩ := ho
      obtain rfl : c = .owner := by simpa [Call.suits] using hsuits
      have hout := (hs.regular.orderly .owner).outside
      cases hcs : sys.scheduler.callsOf .owner with
      | nil => rw [hcs] at hx; cases hx
      | cons y rest =>
          rw [hcs] at hx hout
          rcases List.mem_cons.mp hx with rfl | hx
          · exact ⟨rfl, o, rest, f, r, rfl, hf, hr, hback⟩
          · cases hout _ hx
  | running | taking => cases hsuits
  | _ => exact ho.elim

theorem owes_of_heard {a : SchedulerAct} (hm : Move sys.scheduler a sys'.scheduler events) (hh : Heard c n events) :
    sys.Owes c n := by
  obtain ⟨id, kind, d, he, hback⟩ := hh
  cases hm.news he rfl with
  | @notified _ _ _ o _ _ _ hcs hf hr => exact ⟨.delivering n o, hcs ▸ List.mem_cons_self, rfl, _, _, hf, hr, hback⟩

/-- Once the scheduler is closed, nobody comes to owe anything. -/
theorem Reachable.owed (h : Reachable history sys) (hclosed : sys.scheduler.isClosed = true)
    (hs : sys.step act = some (sys', events)) (ho : sys'.Owes c n) : sys.Owes c n := by
  rcases step_cases hs with ⟨-, rfl, -⟩ | ⟨a, loop, -, -, hm, -⟩
  · exact ho
  · cases hsync : sys.scheduler.isSynchronous with
    | true =>
        have hinline := h.inline hsync
        obtain ⟨x, hx, ho⟩ := ho
        exact (hm.alone hinline).owed hinline.sole hclosed hx ho
    | false =>
        have hsane := h.sane hsync
        obtain ⟨rfl, o, rest, g, r, hcs, hg, hr, hback⟩ := ho.pooled (hm.sane hsane)
        rcases hm.takes hsane (hcs ▸ List.mem_cons_self) with hx | ⟨-, -, -, -, hopen⟩
        · obtain ⟨f, hf, -⟩ := (h.delivering hsync).taken_closed hx
          obtain ⟨g', hg', hp⟩ := hm.persists hf
          cases hg.symm.trans hg'
          rw [hp.action, hm.keeps.registration?] at hr
          exact ⟨.delivering n o, hx, rfl, f, r, hf, hr, hback⟩
        · rw [hclosed] at hopen; cases hopen

theorem Run.owed (h : Run sys later sys') (hreach : Reachable history sys) (hclosed : sys.scheduler.isClosed = true)
    (ho : (∃ moment ∈ later, Heard c n moment.events) ∨ sys'.Owes c n) : sys.Owes c n := by
  induction h with
  | start =>
      rcases ho with ⟨moment, hm, -⟩ | ho
      · cases hm
      · exact ho
  | @step later mid act sys' events hrun hs ih =>
      have hmid := hreach.run hrun
      have hback (ho : sys'.Owes c n) : sys.Owes c n := ih (.inr (hmid.owed (hrun.closed hclosed) hs ho))
      rcases ho with ⟨moment, hm, hh⟩ | ho
      · rcases List.mem_cons.mp hm with rfl | hm
        · rcases step_cases hs with ⟨-, -, rfl⟩ | ⟨a, loop, -, -, hmove, -⟩
          · obtain ⟨id, kind, d, he, -⟩ := hh; cases he
          · exact ih (.inr (owes_of_heard hmove hh))
        · exact ih (.inl ⟨moment, hm, hh⟩)
      · exact hback ho

/-! ## What is owed is given -/

/-- How far the calls are from their ends. -/
def weight : List Call → Nat
  | [] => 0
  | x :: cs => x.rank + 1 + weight cs

theorem weight_cons (x : Call) (cs : List Call) : weight (x :: cs) = x.rank + 1 + weight cs := rfl

/-- The flight's outcome goes to its callback in some continuation. -/
def Gives (sys : System) (c : Caller) (n : Nat) : Prop :=
  ∃ later sys', Run sys later sys' ∧ ∃ moment ∈ later, Heard c n moment.events

theorem Gives.of_heard (hs : sys.step act = some (sys', events)) (hh : Heard c n events) : sys.Gives c n :=
  ⟨_, sys', Run.start.step hs, _, List.mem_singleton.mpr rfl, hh⟩

theorem Gives.step (hs : sys.step act = some (sys', events)) (h : sys'.Gives c n) : sys.Gives c n := by
  obtain ⟨later, sys₂, hrun, moment, hm, hh⟩ := h
  exact ⟨_, sys₂, (Run.start.step hs).trans hrun, moment, List.mem_append_left _ hm, hh⟩

/-- The calls inside of one that owes an outcome come to their ends, and then it gives the outcome. -/
theorem Reachable.unwinds {above rest : List Call} (h : Reachable history sys)
    (hsync : sys.scheduler.isSynchronous = true) (hcs : sys.scheduler.callsOf c = above ++ x :: rest)
    (ho : sys.scheduler.Owes n x) : sys.Gives c n := by
  -- by the weight of the calls up to the one that owes
  generalize hw : weight above + x.rank = k
  induction k using Nat.strongRecOn generalizing history sys above x with
  | ind k ih =>
      cases above with
      | nil =>
          obtain ⟨act, s', events, hact, hs, hgo⟩ := (h.inline hsync).gets_on hcs
          obtain ⟨sys', hstep, rfl⟩ := step_thread hact hs
          cases hgo with
          | done _ hheard => exact .of_heard hstep (hheard n ho)
          | @next y hcs' hrank hheard =>
              rcases hheard n ho with hh | ho'
              · exact .of_heard hstep hh
              · have hlt : weight [] + y.rank < k := hw ▸ Nat.add_lt_add_left hrank _
                have hsync' := (step_synchronous hstep).trans hsync
                exact .step hstep (ih _ hlt (h.step hstep) hsync' hcs' ho' rfl)
      | cons y above =>
          rw [List.cons_append] at hcs
          obtain ⟨act, s', events, hact, hs, hgo⟩ := (h.inline hsync).gets_on hcs
          have hout : x.isOutside = true := by
            refine ((h.inline hsync).orderly c).outside x ?_
            rw [hcs]
            exact List.mem_append_right _ List.mem_cons_self
          have ho' := ho.outside hout (step_move hs)
          obtain ⟨sys', hstep, rfl⟩ := step_thread hact hs
          have hsync' := (step_synchronous hstep).trans hsync
          rw [weight_cons] at hw
          cases hgo with
          | done hcs' => exact .step hstep (ih _ (by omega) (h.step hstep) hsync' hcs' ho' rfl)
          | @next z hcs' hrank =>
              have hlt : weight (z :: above) + x.rank < k := by rw [weight_cons]; omega
              exact .step hstep (ih _ hlt (h.step hstep) hsync' hcs' ho' rfl)

theorem Reachable.gives (h : Reachable history sys) (ho : sys.Owes c n) : sys.Gives c n := by
  cases hsync : sys.scheduler.isSynchronous with
  | true =>
      obtain ⟨x, hx, ho⟩ := ho
      obtain ⟨above, rest, hcs⟩ := List.append_of_mem hx
      exact h.unwinds hsync hcs ho
  | false =>
      obtain ⟨rfl, o, rest, f, r, hcs, hf, hr, hback⟩ := ho.pooled (h.sane hsync)
      obtain ⟨s', events, hs, hgo⟩ := Scheduler.gives hcs hf hr
      obtain ⟨sys', hstep, rfl⟩ := step_thread (by simp) hs
      have howes : sys.scheduler.Owes n (.delivering n o) := ⟨rfl, f, r, hf, hr, hback⟩
      cases hgo with
      | done _ hheard => exact .of_heard hstep (hheard n howes)
      | next hcs' hrank hheard =>
          rcases hheard n howes with hh | ho'
          · exact .of_heard hstep hh
          · have hend : _ < 1 := hrank
            exact absurd ho'.rank_pos (Nat.not_lt.mpr (Nat.le_of_lt_succ hend))

/-- Closed schedulers give what is owed and nothing else. -/
theorem Reachable.gives_iff_owes (h : Reachable history sys) (hclosed : sys.scheduler.isClosed = true) :
    sys.Gives c n ↔ sys.Owes c n := by
  constructor
  · rintro ⟨later, sys', hrun, hheard⟩
    exact hrun.owed h hclosed (.inl hheard)
  · exact h.gives

/-! ## Closing calls -/

/-- Some call that closes the scheduler has returned. -/
def CloseReturned (history : List Moment) : Prop :=
  ∃ moment ∈ history, (∃ flights, .closed flights ∈ moment.events) ∨
    ∃ c, moment.act = .thread (.close c) ∧ .returned c ∈ moment.events

theorem closed_of_return {s s' : Scheduler} {a : SchedulerAct} (hm : Move s a s' events) (h : s.Regular)
    (hret : (∃ flights, .closed flights ∈ events) ∨ ∃ c, a = .close c ∧ .returned c ∈ events) :
    s.isClosed = true := by
  rcases hret with ⟨flights, he⟩ | ⟨c, rfl, he⟩
  · cases hm.news he rfl with
    | closed _ hk => exact h.closing (by simp [hk])
  · cases hm with
    | shutAgain _ hc => exact hc
    | shut => cases he
    | turned ht => cases ht
    | worked _ _ _ _ hl => cases hl
    | idled hact => simp at hact

theorem Reachable.closed (h : Reachable history sys) (hret : CloseReturned history) :
    sys.scheduler.isClosed = true := by
  refine h.invariant (P := fun history sys => CloseReturned history → sys.scheduler.isClosed = true)
    (fun _ _ ⟨_, hm, _⟩ => by cases hm) ?_ hret
  intro history sys act sys' events hreach ih hs ⟨moment, hm, hret⟩
  rcases List.mem_cons.mp hm with rfl | hm
  · rcases step_cases hs with ⟨rfl, -, rfl⟩ | ⟨a, loop, rfl, -, hmove, -⟩
    · simp at hret
    · exact hmove.keeps.closed (closed_of_return hmove hreach.regular (by simpa using hret))
  · have hbefore := ih ⟨moment, hm, hret⟩
    exact step_scheduler (P := fun s => s.isClosed = true) hs hbefore fun hm => hm.keeps.closed hbefore

/-- After a call that closes the scheduler has returned, a callback is started with the outcome of a flight in some
continuation if and only if a thread had this outcome in hand: with a pool the owner took it from the flight, without
one the thread is in its run of the flight. -/
theorem heard_after_closing_iff (h : Reachable history sys) (hret : CloseReturned history) (c : Caller) (n : Nat) :
    (sys.Gives c n ↔ sys.Owes c n) ∧
    (sys.scheduler.isSynchronous = false → (sys.Owes c n ↔ c = .owner ∧
      ∃ o rest f r, sys.scheduler.callsOf .owner = .delivering n o :: rest ∧ sys.scheduler.flights[n]? = some f ∧
        sys.scheduler.registration? f.action = some r ∧ (r.deliver o).callsBack = true)) := by
  refine ⟨h.gives_iff_owes (h.closed hret), fun hpool => ⟨fun ho => ho.pooled (h.sane hpool), ?_⟩⟩
  rintro ⟨rfl, o, rest, f, r, hcs, hf, hr, hback⟩
  exact ⟨.delivering n o, hcs ▸ List.mem_cons_self, rfl, f, r, hf, hr, hback⟩

end

/-- The owner took the outcome of its flight, and another thread closed the scheduler before the owner went on. -/
theorem taken_outcome_given : ∃ history sys, Reachable history sys ∧ sys.scheduler.isSynchronous = false ∧
    CloseReturned history ∧ sys.scheduler.callsOf (.other 0) = [] ∧ sys.Gives .owner 0 := by
  let acts : List SystemAct :=
    [ .thread (.apply .owner ⟨0⟩ (.string "a")), .thread (.advance .owner none), .thread (.advance .owner none),
      .thread (.advance (.worker 1) none), .thread (.advance (.worker 1) none), .thread (.advance (.worker 1) none),
      .thread (.advance (.worker 1) none),
      .thread (.reply (.worker 1) (.value (some (.string "x")))), .thread (.advance (.worker 1) none),
      .thread (.advance (.worker 1) none), .thread (.advance (.worker 1) none), .thread (.advance (.worker 1) none),
      .thread (.run (.handBack 0)), .thread (.advance .owner none),
      .thread (.close (.other 0)), .thread (.advance (.other 0) none), .thread (.advance (.other 0) none),
      .thread (.advance (.other 0) none), .thread (.advance (.other 0) none), .thread (.advance (.worker 1) none),
      .thread (.advance (.worker 1) none), .thread (.advance (.other 0) none), .thread (.advance (.other 0) none),
      .thread (.advance (.other 0) none), .thread (.advance (.other 0) none) ]
  obtain ⟨moment, history, sys, o, f, r, hr, hclosed, hpool, hother, hcs, hf, hreg, hback⟩ : ∃ moment history sys o f r,
      replay acts [] (small true) = some (moment :: history, sys) ∧ .closed 0 ∈ moment.events ∧
      sys.scheduler.isSynchronous = false ∧ sys.scheduler.callsOf (.other 0) = [] ∧
      sys.scheduler.callsOf .owner = [.delivering 0 o] ∧ sys.scheduler.flights[0]? = some f ∧
      sys.scheduler.registration? f.action = some r ∧ (r.deliver o).callsBack = true :=
    ⟨_, _, _, _, _, _, rfl, List.mem_cons_self, rfl, rfl, rfl, rfl, rfl, rfl⟩
  have hreach := replay_reachable (small_reachable true) hr
  have hret : CloseReturned (moment :: history) := ⟨moment, List.mem_cons_self, .inl ⟨0, hclosed⟩⟩
  obtain ⟨hgives, howes⟩ := heard_after_closing_iff hreach hret .owner 0
  exact ⟨_, sys, hreach, hpool, hret, hother, hgives.mpr ((howes hpool).mpr ⟨rfl, o, [], f, r, hcs, hf, hreg, hback⟩)⟩

/-- Without a pool a function closes the scheduler, and the outcome of the function goes to its callback. -/
theorem heard_after_closing_itself : ∃ history sys sys' events, Reachable history sys ∧ CloseReturned history ∧
    sys.step (.thread (.advance .owner none)) = some (sys', events) ∧ Heard .owner 0 events := by
  let acts : List SystemAct :=
    [ .thread (.apply .owner ⟨0⟩ (.string "x")), .thread (.advance .owner none), .thread (.close .owner),
      .thread (.advance .owner none), .thread (.reply .owner (.value (some (.string "x")))),
      .thread (.advance .owner none), .thread (.advance .owner none) ]
  obtain ⟨history, sys, sys', d, hr, hstep, hback, hret⟩ : ∃ history sys sys' d,
      replay acts [] (small false) = some (history, sys) ∧
      sys.step (.thread (.advance .owner none)) = some (sys', [.notified .owner 0 ⟨0⟩ .get d]) ∧ d.callsBack = true ∧
      CloseReturned history :=
    ⟨_, _, _, _, rfl, rfl, rfl, _, .tail _ (.tail _ (.tail _ List.mem_cons_self)), .inl ⟨_, List.mem_cons_self⟩⟩
  exact ⟨history, sys, sys', _, replay_reachable (small_reachable false) hr, hret, hstep, ⟨0⟩, .get, d,
    List.mem_cons_self, hback⟩

end System

end SingleFlight
