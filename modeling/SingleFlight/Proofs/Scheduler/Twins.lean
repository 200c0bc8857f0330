import SingleFlight.Proofs.Scheduler.Frame

/-!
# What a step sees of the calls

A thread sees its own calls only. Where two schedulers differ in the calls of other threads alone, the thread takes the
same step in both: with the same events, to schedulers that differ in the calls of other threads alone.
-/

namespace SingleFlight

variable [Payloads]

/-- The thread that takes a step. -/
@[simp] def SchedulerAct.actor : SchedulerAct → Caller
  | apply c _ _ => c
  | close c => c
  | run _ => .owner
  | advance c _ => c
  | reply c _ => c
  | leave c _ => c
  | expire w => .worker w
  | abandon c => c

namespace Scheduler

/-- The scheduler with other calls under way. -/
def withCalls (s : Scheduler) (k : List (Caller × List Call)) : Scheduler := { s with calls := k }

/-- The result of a step with other calls under way. -/
def recalled {α : Type} (k : List (Caller × List Call)) (r : Scheduler × α) : Scheduler × α := (r.1.withCalls k, r.2)

/-- Two results with the same events and schedulers that differ at most in calls, and not in those of the thread. -/
structure Twins (c : Caller) (r r' : Scheduler × List SchedulerEvent) : Prop where
  events : r'.2 = r.2
  rest : r'.1 = r.1.withCalls r'.1.calls
  calls : r'.1.callsOf c = r.1.callsOf c

/-! ## Calls and the rest -/

section
variable (s : Scheduler) (k : List (Caller × List Call)) (id : ActionId)

-- proved by a tactic: as definitional equations they would be rewritten in the conditions of `if` but not in how these
-- are decided, and the two sides of a step would no longer split alike
@[simp] theorem pool_withCalls : (s.withCalls k).pool = s.pool := by rfl

@[simp] theorem flights_withCalls : (s.withCalls k).flights = s.flights := by rfl

@[simp] theorem inFlight_withCalls : (s.withCalls k).inFlight = s.inFlight := by rfl

@[simp] theorem isClosed_withCalls : (s.withCalls k).isClosed = s.isClosed := by rfl

@[simp] theorem closing_withCalls : (s.withCalls k).closing = s.closing := by rfl

@[simp] theorem isSynchronous_withCalls : (s.withCalls k).isSynchronous = s.isSynchronous := by rfl

@[simp] theorem flightOf?_withCalls : (s.withCalls k).flightOf? id = s.flightOf? id := by rfl

@[simp] theorem registration?_withCalls : (s.withCalls k).registration? id = s.registration? id := by rfl

end

variable {s u : Scheduler} {k : List (Caller × List Call)} {act : SchedulerAct} {c d : Caller} {rest cs : List Call}
  {n w : Nat} {x : Call} {stage : RunStage} {refusal : Option IoError} {events : List SchedulerEvent}

theorem Twins.setCalls : Twins c (u.setCalls c cs, events) ((u.withCalls k).setCalls c cs, events) :=
  ⟨rfl, rfl, by simp⟩

theorem Twins.same (hk : (s.withCalls k).callsOf c = s.callsOf c) (hu : u.calls = s.calls) :
    Twins c (u, events) (u.withCalls k, events) :=
  ⟨rfl, rfl, hk.trans (callsOf_congr hu).symm⟩

/-- A step that does nothing with calls. -/
theorem twins_of_recalled (f : Scheduler → Option (Scheduler × List SchedulerEvent))
    (hk : (s.withCalls k).callsOf c = s.callsOf c) (hf : ∀ k, f (s.withCalls k) = (f s).map (recalled k)) :
    Option.Rel (Twins c) (f s) (f (s.withCalls k)) := by
  have hself : f s = (f s).map (recalled s.calls) := hf s.calls
  rw [hf k]
  cases hr : f s with
  | none => exact .none
  | some r =>
      rw [hr] at hself
      have hcalls : r.1.calls = s.calls := congrArg (·.1.calls) (Option.some.inj hself)
      exact .some (.same hk hcalls)

/-! ## Workers -/

theorem heed_withCalls (pooled : List (PoolEvent Nat)) :
    ∀ s : Scheduler, (s.withCalls k).heed pooled = (s.heed pooled).withCalls k := by
  induction pooled with
  | nil => intro s; rfl
  | cons e pooled ih =>
      intro s
      cases e with
      | interrupted n => exact ih { s with flights := s.flights.modify n Flight.interrupt }
      | _ => exact ih s

theorem withPool_withCalls (p : Pool Nat WorkStage) (pooled : List (PoolEvent Nat)) :
    (s.withCalls k).withPool p pooled = recalled k (s.withPool p pooled) :=
  Prod.ext (heed_withCalls pooled { s with pool := some p }) rfl

theorem workerStep_withCalls (s : Scheduler) (k : List (Caller × List Call)) (w : Nat) (step : WorkerAct WorkStage)
    (events : List SchedulerEvent) :
    (s.withCalls k).workerStep w step events = (s.workerStep w step events).map (recalled k) := by
  simp only [workerStep, pool_withCalls, withPool_withCalls]
  cases s.pool with
  | none => rfl
  | some p =>
      simp only [Option.bind_some]
      cases p.work w step <;> rfl

theorem enter_withCalls (name : String) : (s.withCalls k).enter w name n = (s.enter w name n).map (recalled k) := by
  simp only [enter, flights_withCalls]
  cases s.flights[n]? with
  | none => rfl
  | some f => exact workerStep_withCalls (s.setFlight n (f.bind name)) k w _ _

theorem runStep_withCalls : (s.withCalls k).runStep c n stage = (s.runStep c n stage).map (recalled k) := by
  simp only [runStep, flights_withCalls, registration?_withCalls]
  cases s.flights[n]? with
  | none => rfl
  | some f =>
      simp only [Option.bind_some]
      cases stage with
      | starting =>
          rcases f.start with ⟨g, _ | _ | _⟩
          · rfl
          · rfl
          · rename_i input token
            cases s.registration? f.action with
            | none => rfl
            | some r =>
                simp only [Option.map_some]
                cases r.callInput input <;> rfl
      | invoking => rfl
      | settling token outcome =>
          dsimp only
          rcases f.settle token outcome with ⟨g, _ | _ | _⟩ <;> rfl

theorem runOnWorker_withCalls :
    (s.withCalls k).runOnWorker w n stage = (s.runOnWorker w n stage).map (recalled k) := by
  simp only [runOnWorker, runStep_withCalls]
  rcases s.runStep (.worker w) n stage with _ | ⟨t, _ | _ | _, events⟩
  · rfl
  · exact workerStep_withCalls t k w _ _
  · exact workerStep_withCalls t k w _ _
  · exact workerStep_withCalls t k w _ _

theorem handBack_withCalls (name : String) (stage : WorkStage) :
    (s.withCalls k).handBack w name n stage = (s.handBack w name n stage).map (recalled k) := by
  simp only [handBack, flights_withCalls, isClosed_withCalls]
  cases s.flights[n]? with
  | none => rfl
  | some f =>
      simp only [Option.bind_some]
      cases stage with
      | failing message => exact workerStep_withCalls (s.setFlight n (f.fail message)) k w _ _
      | unbinding => exact workerStep_withCalls (s.setFlight n (f.unbind name)) k w _ _
      | returning =>
          dsimp only
          split
          · exact workerStep_withCalls s k w _ _
          · exact workerStep_withCalls s k w _ _
      | posting => exact workerStep_withCalls s k w _ _
      | running => rfl

theorem advanceWorker_withCalls (k : List (Caller × List Call)) :
    (s.withCalls k).advanceWorker w = (s.advanceWorker w).map (recalled k) := by
  simp only [advanceWorker, pool_withCalls]
  cases s.pool with
  | none => rfl
  | some p =>
      simp only [Option.bind_some]
      split
      · exact enter_withCalls _
      · exact runOnWorker_withCalls
      · exact handBack_withCalls _ _
      · cases p.nextRoutine? w with
        | none => rfl
        | some step => exact workerStep_withCalls s k w step _

/-! ## Closing -/

theorem stopStep_withCalls (step : StopAct) (k : List (Caller × List Call)) :
    (s.withCalls k).stopStep step = (s.stopStep step).map (recalled k) := by
  simp only [stopStep, pool_withCalls, withPool_withCalls]
  cases s.pool with
  | none => rfl
  | some p =>
      simp only [Option.bind_some]
      cases p.halting step <;> rfl

theorem twins_advanceClosing (hk : (s.withCalls k).callsOf c = s.callsOf c) :
    Option.Rel (Twins c) (s.advanceClosing c rest) ((s.withCalls k).advanceClosing c rest) := by
  simp only [advanceClosing, pool_withCalls, closing_withCalls]
  cases s.closing with
  | none => exact .none
  | some closing =>
      simp only [Option.bind_some]
      split
      · cases s.pool with
        | none => exact .none
        | some p =>
            simp only [Option.bind_some]
            split
            · exact .some (.same hk rfl)
            · exact twins_of_recalled (·.stopStep _) hk (stopStep_withCalls _)
      · exact .some (.same hk rfl)
      · cases s.pool.bind Pool.report? with
        | none => exact .none
        | some r => exact .some (.same hk rfl)
      · exact .some (.same hk rfl)
      · exact .some .setCalls

/-! ## Requests and deliveries -/

theorem twins_lookUp (id : ActionId) (input : Payload) :
    Twins c (s.lookUp c rest id input) ((s.withCalls k).lookUp c rest id input) := by
  simp only [lookUp, isClosed_withCalls, flightOf?_withCalls, registration?_withCalls]
  split
  · exact .setCalls
  · split
    · exact .setCalls
    · split
      · exact .setCalls
      · exact .setCalls

theorem twins_offer (input : Payload) :
    Option.Rel (Twins c) (s.offer c rest n input) ((s.withCalls k).offer c rest n input) := by
  simp only [offer, flights_withCalls]
  cases s.flights[n]? with
  | none => exact .none
  | some f =>
      refine .some ?_
      dsimp only
      split <;> exact .setCalls

theorem twins_submit : Option.Rel (Twins c) (s.submit c rest n refusal) ((s.withCalls k).submit c rest n refusal) := by
  simp only [submit, pool_withCalls, flights_withCalls, withPool_withCalls]
  split
  · split
    · exact .some .setCalls
    · exact .some .setCalls
    · exact .some .setCalls
  · exact .none

theorem twins_collect : Option.Rel (Twins c) (s.collect c rest n) ((s.withCalls k).collect c rest n) := by
  simp only [collect, flights_withCalls, flightOf?_withCalls]
  cases s.flights[n]? with
  | none => exact .none
  | some f =>
      refine .some ?_
      dsimp only
      split
      · exact .setCalls
      · split <;> exact .setCalls

theorem twins_takeOutcome :
    Option.Rel (Twins c) (s.takeOutcome c rest n) ((s.withCalls k).takeOutcome c rest n) := by
  simp only [takeOutcome, flights_withCalls]
  cases s.flights[n]? with
  | none => exact .none
  | some f =>
      refine .some ?_
      dsimp only
      split <;> exact .setCalls

theorem twins_deliver (outcome : Outcome) :
    Option.Rel (Twins c) (s.deliver c rest n outcome) ((s.withCalls k).deliver c rest n outcome) := by
  simp only [deliver, flights_withCalls, registration?_withCalls]
  cases s.flights[n]? with
  | none => exact .none
  | some f =>
      simp only [Option.bind_some]
      cases s.registration? f.action with
      | none => exact .none
      | some r =>
          refine .some ?_
          dsimp only
          split <;> exact .setCalls

theorem twins_runInline :
    Option.Rel (Twins c) (s.runInline c rest n stage) ((s.withCalls k).runInline c rest n stage) := by
  simp only [runInline, runStep_withCalls]
  rcases s.runStep c n stage with _ | ⟨t, _ | _ | _, events⟩
  · exact .none
  · exact .some .setCalls
  · exact .some .setCalls
  · exact .some .setCalls

/-! ## Steps -/

theorem Twins.push (hk : (s.withCalls k).callsOf c = s.callsOf c) (hu : u.calls = s.calls) :
    Twins c (u.push c x, events) ((u.withCalls k).push c x, events) := by
  have hcalls : (u.withCalls k).callsOf c = u.callsOf c := hk.trans (callsOf_congr hu).symm
  simp only [Scheduler.push, hcalls]
  exact .setCalls

theorem twins_apply (hk : (s.withCalls k).callsOf c = s.callsOf c) (id : ActionId) (input : Payload) :
    Twins c (s.apply c id input) ((s.withCalls k).apply c id input) := by
  simp only [apply, isClosed_withCalls, isSynchronous_withCalls, registration?_withCalls]
  split
  · exact .same hk rfl
  · rename_i r _
    split
    · exact .same hk rfl
    · split
      · exact .same hk rfl
      · split
        · exact .push (u := { s with flights := s.flights ++ [Flight.of r input] }) hk rfl
        · split
          · exact .push hk rfl
          · exact .push hk rfl

theorem twins_run (hk : (s.withCalls k).callsOf .owner = s.callsOf .owner) (job : Posted) :
    Twins .owner (s.run job) ((s.withCalls k).run job) := by
  cases job with
  | request id input => exact .push hk rfl
  | handBack n =>
      simp only [run, isClosed_withCalls]
      split
      · exact .same hk rfl
      · exact .push hk rfl

theorem twins_close (hk : (s.withCalls k).callsOf c = s.callsOf c) : Twins c (s.close c) ((s.withCalls k).close c) := by
  simp only [close, isClosed_withCalls, isSynchronous_withCalls, inFlight_withCalls]
  split
  · exact .same hk rfl
  · exact .push (u := { s with isClosed := true, inFlight := [], closing := some _ }) hk rfl

theorem twins_advanceCall (hk : (s.withCalls k).callsOf c = s.callsOf c) :
    Option.Rel (Twins c) (s.advanceCall c refusal rest x) ((s.withCalls k).advanceCall c refusal rest x) := by
  cases x with
  | posting id input => exact .some .setCalls
  | applying id input => exact .some (twins_lookUp id input)
  | offering n input => exact twins_offer input
  | submitting n => exact twins_submit
  | finishing n => exact twins_collect
  | running n stage => exact twins_runInline
  | taking n => exact twins_takeOutcome
  | delivering n outcome => exact twins_deliver outcome
  | calling n => exact .none
  | closing => exact twins_advanceClosing hk

theorem twins_advance (hk : (s.withCalls k).callsOf c = s.callsOf c) :
    Option.Rel (Twins c) (s.advance c refusal) ((s.withCalls k).advance c refusal) := by
  simp only [advance, hk]
  split
  · exact twins_advanceCall hk
  · exact twins_of_recalled (·.advanceWorker _) hk advanceWorker_withCalls
  · exact .none

theorem twins_reply (hk : (s.withCalls k).callsOf c = s.callsOf c) (answer : Reply) :
    Option.Rel (Twins c) (s.reply c answer) ((s.withCalls k).reply c answer) := by
  simp only [reply, hk, pool_withCalls, flights_withCalls, registration?_withCalls]
  split
  · rename_i n input token rest _
    cases (s.flights[n]?).bind fun f => (s.registration? f.action).map fun r =>
      RunStage.settling token (Flight.caught (r.outcome answer)) with
    | none => exact .none
    | some stage => exact .some .setCalls
  · rename_i w _
    split
    · rename_i n input token _
      cases (s.flights[n]?).bind fun f => (s.registration? f.action).map fun r =>
        RunStage.settling token (Flight.caught (r.outcome answer)) with
      | none => exact .none
      | some stage => exact twins_of_recalled (·.workerStep w _ _) hk fun k => workerStep_withCalls s k w _ _
    · exact .none
  · exact .none

theorem twins_leave (hk : (s.withCalls k).callsOf c = s.callsOf c) (panic : Option String) :
    Option.Rel (Twins c) (s.leave c panic) ((s.withCalls k).leave c panic) := by
  simp only [leave, hk]
  split
  · exact .some .setCalls
  · exact .some .setCalls
  · exact .none

/-- A thread takes the same step whatever other threads have under way. -/
theorem twins_step (hk : (s.withCalls k).callsOf act.actor = s.callsOf act.actor) :
    Option.Rel (Twins act.actor) (s.step act) ((s.withCalls k).step act) := by
  have hfree (c : Caller) (hc : (s.withCalls k).callsOf c = s.callsOf c) :
      (s.withCalls k).isFree c = s.isFree c := by
    simp only [isFree, hc, isInvoking, pool_withCalls]
  cases act with
  | apply c id input =>
      simp only [step, hfree c hk]
      split
      · exact .some (twins_apply hk id input)
      · exact .none
  | close c =>
      simp only [step, hfree c hk]
      split
      · exact .some (twins_close hk)
      · exact .none
  | run job =>
      simp only [step, hfree .owner hk, isSynchronous_withCalls]
      split
      · exact .some (twins_run hk job)
      · exact .none
  | advance c refusal => exact twins_advance hk
  | reply c answer => exact twins_reply hk answer
  | leave c panic => exact twins_leave hk panic
  | expire w => exact twins_of_recalled (·.workerStep w _ _) hk fun k => workerStep_withCalls s k w _ _
  | abandon c =>
      have hawait : (s.withCalls k).isAwaiting c = s.isAwaiting c := by
        have hc : (s.withCalls k).callsOf c = s.callsOf c := hk
        simp only [isAwaiting, hc, pool_withCalls]
      simp only [step, hawait]
      split
      · exact twins_of_recalled (·.stopStep _) hk (stopStep_withCalls _)
      · exact .none

theorem Turn.actor {cs' : List Call} (h : Turn s act c cs cs' events) : act.actor = c := by
  cases h <;> rfl

/-- A step leaves the calls of other threads alone. -/
theorem Move.others {s' : Scheduler} (hm : Move s act s' events) (hd : d ≠ act.actor) : s'.callsOf d = s.callsOf d := by
  have hset {u : Scheduler} {c : Caller} {cs : List Call} (hc : act.actor = c) (hu : u.calls = s.calls) :
      (u.setCalls c cs).callsOf d = s.callsOf d := by
    rw [callsOf_setCalls, if_neg (hc ▸ hd), callsOf_congr hu]
  cases hm with
  | turned ht => exact hset ht.actor rfl
  | launched | superseded | rearmed | submitted | collected | inlined | ranInline | took | shut => exact hset rfl rfl
  | _ => rfl

end Scheduler

end SingleFlight
