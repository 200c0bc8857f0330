import SingleFlight.Rehearsal.SchedulerBench
import SingleFlight.Scheduler.Plan

/-!
# Several schedulers with one owner

The benches of several schedulers whose owner is one thread. It runs the jobs that are posted to
its loop and to its runtime. The jobs that workers post during a step join them at its end.
-/

namespace SingleFlight.Rehearsal

/-- A scheduler in the workshop; without a bench its plan was rejected. -/
structure Stand where
  number : Nat
  executor : Option OwnerExecutor
  /-- Whether there is at most one worker, so that what workers log has one order. -/
  hasOneWorker : Bool
  bench : Option SchedulerBench

/-- What the workers of a stand logged, oldest first. -/
def Stand.workerLog (s : Stand) : List LogEntry := (s.bench.map (·.workerLog.reverse)).getD []

inductive BuildAnswer
  | built (s : Scheduler)
  | rejected (error : PoolError)
  | panicked (message : String)

inductive LoopAnswer
  /-- The loop was dropped. -/
  | gone
  | ran (jobs : Nat)
  | panicked (message : String)

/-- What became of running what is posted; the number of the runtime's jobs if there is one. -/
structure PumpAnswer where
  loop : LoopAnswer
  runtime : Option Nat

/-- A call that changes a scheduler. -/
inductive Request
  | apply (id : ActionId) (input : Payload)
  | close

/-- The call made by a thread. -/
def Request.by (caller : Caller) : Request → SchedulerAct
  | apply id input => .apply caller id input
  | close => .close caller

inductive WorkshopCall
  | act (request : Request)
  /-- A backup, to be kept under a name or not. -/
  | backup (name : Option String)
  | kinds (ids : List ActionId)
  | look (id : ActionId)
  | info
  | describe
  /-- The last handle goes. -/
  | drop

inductive WorkshopStep
  | call (number : Nat) (caller : Caller) (c : WorkshopCall)
  /-- Opens the gate that the function of an action waits at. -/
  | release (number : Nat) (id : ActionId)
  | releaseAll (number : Nat)
  | pump
  | drain
  | dropLoop

inductive WorkshopAnswer
  | done
  | panicked (message : String)
  | saved (s : Snapshot Payload)
  | kinds (kinds : List (Option ActionKind))
  | look (flights : Except String Nat) (isInFlight : Except String Bool)
  | info (isOwner isClosed isSynchronous : Bool) (actions workers : Nat)
  | text (s : String)
  | truth (b : Bool)
  | count (n : Nat)
  | pumped (answer : PumpAnswer)
  | drained (answers : List PumpAnswer)
  | noScheduler

/-- What is seen of a scheduler that has a handle. -/
structure StandState where
  isClosed : Bool
  workers : Nat
  /-- The actions in flight, ascending. -/
  inFlight : List ActionId

structure StandLook where
  number : Nat
  look : SchedulerBench.Look := {}
  state : Option StandState := none

/-- A job with the scheduler that it is for. -/
structure Errand where
  stand : Nat
  job : Posted

/-- Schedulers with their owner. -/
structure Workshop where
  loop : OwnerLoop Errand := {}
  /-- The jobs of the runtime, oldest first. -/
  runtime : List Errand := []
  hasRuntime : Bool := false
  stands : List Stand := []
  /-- Backups by name, newest first. -/
  saved : List (String × Snapshot Payload) := []

namespace Workshop

def stand? (w : Workshop) (number : Nat) : Option Stand :=
  w.stands.find? (·.number = number)

def bench? (w : Workshop) (number : Nat) : Option SchedulerBench :=
  (w.stand? number).bind (·.bench)

/-- A scheduler that still has a handle. -/
def reachable? (w : Workshop) (number : Nat) : Option SchedulerBench :=
  (w.bench? number).filter fun b => !b.isGone

def setBench (w : Workshop) (number : Nat) (b : SchedulerBench) : Workshop :=
  { w with stands := w.stands.map fun s =>
      if s.number = number then { s with bench := some b } else s }

def pending (w : Workshop) : Nat := w.loop.pending + w.runtime.length

def saved? (w : Workshop) (name : String) : Option (Snapshot Payload) :=
  (w.saved.find? (·.1 = name)).map (·.2)

def save (w : Workshop) (name : String) (s : Snapshot Payload) : Workshop :=
  { w with saved := (name, s) :: w.saved }

/-! ## Posting -/

/-- Posts a job; a dropped loop discards it. -/
def post (w : Workshop) (executor : Option OwnerExecutor) (errand : Errand) : Workshop :=
  match executor with
  | some .runtime => { w with runtime := w.runtime ++ [errand] }
  | some .loop =>
    if w.loop.isClosed then
      match w.bench? errand.stand with
      | some b => w.setBench errand.stand (b.write .owner OwnerLoop.discardEntry)
      | none => w
    else { w with loop := w.loop.post errand }
  | none => w

/-- Posts the jobs that the threads of one scheduler left. -/
def postFrom (w : Workshop) (s : Stand) : Workshop :=
  match w.bench? s.number with
  | none => w
  | some b =>
    let (b, others) := b.takeOtherJobs
    let (b, workers) := b.takeWorkerJobs
    (others ++ workers).foldl (fun w job => w.post s.executor { stand := s.number, job })
      (w.setBench s.number b)

/-- Posts the jobs that the threads of all schedulers left. -/
def postAll (w : Workshop) : Workshop := w.stands.foldl postFrom w

/-! ## Running -/

/-- Runs one job; a scheduler without a handle ignores it. -/
def runErrand (w : Workshop) (errand : Errand) : Workshop × Except String Unit :=
  match w.reachable? errand.stand with
  | none => (w, .ok ())
  | some b =>
    let (b, answer) := b.call .owner (.run errand.job)
    (w.setBench errand.stand b.settle, answer)

/-- Runs the jobs of the loop until none is left or one panics. -/
def runLoopWith : Nat → Workshop → Nat → Workshop × LoopAnswer
  | 0, w, ran => (w, .ran ran)
  | fuel + 1, w, ran =>
    match w.loop.take? with
    | none => (w, .ran ran)
    | some (errand, loop) =>
      match { w with loop }.runErrand errand with
      | (w, .ok ()) => runLoopWith fuel w (ran + 1)
      | (w, .error message) => (w, .panicked message)

/-- Runs the jobs of the loop; none of them posts further ones. -/
def runLoop (w : Workshop) : Workshop × LoopAnswer :=
  if w.loop.isClosed then (w, .gone) else runLoopWith w.loop.pending w 0

/-- Runs the jobs of the runtime, which swallows panics. -/
def runRuntime (w : Workshop) : Workshop × Option Nat :=
  if w.hasRuntime then
    (w.runtime.foldl (fun w errand => (w.runErrand errand).1) { w with runtime := [] },
      some w.runtime.length)
  else (w, none)

def pump (w : Workshop) : Workshop × PumpAnswer :=
  let (w, loop) := w.runLoop
  let (w, runtime) := w.runRuntime
  (w, { loop, runtime })

/-- Runs what is posted until nothing is, at least once. -/
def drainWith : Nat → Workshop → List PumpAnswer → Workshop × List PumpAnswer
  | 0, w, answers => (w, answers.reverse)
  | fuel + 1, w, answers =>
    let (w, answer) := w.pump
    let w := w.postAll
    if w.pending = 0 then (w, (answer :: answers).reverse)
    else drainWith fuel w (answer :: answers)

def drain (w : Workshop) : Workshop × List PumpAnswer :=
  drainWith SchedulerBench.patience w []

/-! ## Building -/

/-- Builds a scheduler and makes the requests of its start. -/
def build (w : Workshop) (number : Nat) (plan : Plan) (scripts : List ActionScript)
    (failing : Option FailingThreads) (identity tag : String) (processors : Nat) :
    Workshop × BuildAnswer :=
  let hasRuntime := w.hasRuntime || plan.executor = some .runtime
  let withStand (bench : Option SchedulerBench) : Workshop :=
    let hasOneWorker := plan.executor.isSome && !plan.isParallel processors
    let stand : Stand := { number, executor := plan.executor, hasOneWorker, bench }
    { w with hasRuntime, stands := w.stands ++ [stand] }
  match plan.opening identity tag processors with
  | .rejected error => (withStand none, .rejected error)
  | .panicked message => (withStand none, .panicked message)
  | .opened scheduler =>
    let b : SchedulerBench :=
      { scheduler, scripts, failing, isParallel := plan.isParallel processors
        log := [plan.openedEntry scheduler] }
    match b.start plan.requests with
    | (b, .ok ()) =>
      let b := { b with isReachable := true }.settle
      ((withStand (some b)).postAll, .built b.scheduler)
    | (b, .error message) => ((withStand (some b.drop)).postAll, .panicked message)

/-! ## Steps -/

/-- Answers a call on a scheduler that has a handle. -/
def callOn (w : Workshop) (number : Nat) (caller : Caller) (b : SchedulerBench) :
    WorkshopCall → Workshop × WorkshopAnswer
  | .act a =>
    let (b, answer) := b.call caller (Request.by caller a)
    (w.setBench number b.settle, match answer with
      | .ok () => .done
      | .error message => .panicked message)
  | .backup name =>
    match b.scheduler.backup caller with
    | .error message => (w, .panicked message)
    | .ok s =>
      match name with
      | some name => (w.save name s, .saved s)
      | none => (w, .saved s)
  | .kinds ids => (w, .kinds (ids.map b.scheduler.kind?))
  | .look id => (w, .look (b.scheduler.flightCount caller) (b.scheduler.isInFlight caller id))
  | .info =>
    (w, .info (caller = .owner) b.scheduler.isClosed b.scheduler.isSynchronous
      b.scheduler.registrations.length b.scheduler.workerCount)
  | .describe => (w, .text b.scheduler.description)
  | .drop => (w.setBench number b.drop, .done)

def call (w : Workshop) (number : Nat) (caller : Caller) (c : WorkshopCall) :
    Workshop × WorkshopAnswer :=
  match w.reachable? number with
  | some b => w.callOn number caller b c
  | none => (w, .noScheduler)

def step (w : Workshop) : WorkshopStep → Workshop × WorkshopAnswer
  | .call number caller c =>
    let (w, answer) := w.call number caller c
    (w.postAll, answer)
  | .release number id =>
    match w.bench? number with
    | none => (w, .truth false)
    | some b =>
      let (b, found) := b.release id
      ((w.setBench number b).postAll, .truth found)
  | .releaseAll number =>
    match w.bench? number with
    | none => (w, .count 0)
    | some b =>
      let (b, count) := b.releaseAll
      ((w.setBench number b).postAll, .count count)
  | .pump =>
    let (w, answer) := w.pump
    (w.postAll, .pumped answer)
  | .drain =>
    let (w, answers) := w.drain
    (w, .drained answers)
  | .dropLoop => ({ w with loop := w.loop.drop }, .done)

/-! ## Looking -/

/-- What is seen of a stand since the last look. -/
def lookAt (w : Workshop) (s : Stand) : Workshop × StandLook :=
  match s.bench with
  | none => (w, { number := s.number })
  | some b =>
    let (b, look) := b.look
    let inFlight := (b.scheduler.inFlight.map (·.1)).mergeSort fun x y => x.index ≤ y.index
    let state : StandState :=
      { isClosed := b.scheduler.isClosed, workers := b.scheduler.workerCount, inFlight }
    (w.setBench s.number b,
      { number := s.number, look, state := if b.isGone then none else some state })

/-- What is seen of all stands since the last look. -/
def lookAround (w : Workshop) : Workshop × List StandLook :=
  w.stands.foldl (fun (w, looks) s =>
    let (w, look) := w.lookAt s
    (w, looks ++ [look])) (w, [])

end Workshop

end SingleFlight.Rehearsal
