import SingleFlight.Failure
import SingleFlight.Pool.Events

/-!
# A pool on the bench

A pool with scripted tasks, driven step by step. A task may wait at a gate until it is released.
After each step the workers move until every one of them waits, for a task or at a gate; this is
one order of the pool's steps among many.
-/

namespace SingleFlight.Rehearsal

/-- What a task waits for before it ends. -/
inductive Gate
  /-- Its release only. -/
  | plain
  /-- Its release or its interruption. -/
  | cancellable
deriving DecidableEq, Repr

/-- A task of the bench. -/
structure TaskScript where
  label : String
  gate : Option Gate := none
  /-- A panic at the end of the task. -/
  panic : Option PanicValue := none
  /-- A panic of the hook before the task. -/
  beforePanic : Option String := none
  /-- A panic of the hook after the task. -/
  afterPanic : Option String := none
deriving Inhabited

inductive TaskStage
  | atGate
  | through
deriving DecidableEq, Repr

/-- Which creations of threads fail, counted from one: from the first number on, below the second
one. -/
structure FailingThreads where
  first : Nat
  limit : Option Nat := none

/-- What creation number `n` ends with, if it fails. -/
def FailingThreads.refusal (f : FailingThreads) (n : Nat) : Option IoError :=
  let below : Bool :=
    match f.limit with
    | some limit => n < limit
    | none => true
  if f.first ≤ n && below then
    some (.custom .other ("thread " ++ toString n ++ " refused"))
  else none

/-- What the tasks and hooks of a bench record; tasks go by the number of their submission. -/
inductive PoolNote
  | before (task worker : Nat)
  | run (task worker : Nat)
  | ended (task : Nat) (interrupted : Bool)
  | after (task worker : Nat) (panic : Option String)
deriving Inhabited

def PoolNote.task : PoolNote → Nat
  | before task _ => task
  | run task _ => task
  | ended task _ => task
  | after task _ _ => task

inductive PoolStep
  | submit (script : TaskScript)
  | release (label : String)
  | releaseAll
  | stop
  /-- Whether all workers left. -/
  | await
  | awaitLive (n : Nat)
  | describe
  | name
  | drop

inductive PoolAnswer
  | done
  | refused (error : PoolError)
  | truth (b : Bool)
  | count (n : Nat)
  | stopped (undone : List String) (terminated : Bool)
  | text (s : String)
  | name (start : String)
  /-- The handle of the pool is gone. -/
  | gone

/-- A pool with its tasks. -/
structure PoolBench where
  pool : Pool Nat TaskStage
  failing : Option FailingThreads := none
  /-- How many threads were asked for. -/
  asked : Nat := 0
  scripts : List TaskScript := []
  interrupted : List Nat := []
  /-- The tasks at gates, longest waiting first. -/
  gates : List Nat := []
  isDropped : Bool := false
  /-- Newest first. -/
  notes : List PoolNote := []
  /-- How often the pool was seen to be terminated by its stop. -/
  terminations : Nat := 0
  /-- What the workers logged, newest first. -/
  workerLog : List LogEntry := []

namespace PoolBench

def create (settings : PoolSettings) (name : String) (failing : Option FailingThreads) : PoolBench :=
  { pool := .create name settings, failing }

def script (b : PoolBench) (task : Nat) : TaskScript := b.scripts[task]?.getD default

def isInterrupted (b : PoolBench) (task : Nat) : Bool := b.interrupted.contains task

def isHeld (b : PoolBench) (task : Nat) : Bool :=
  match (b.script task).gate with
  | none => false
  | some .plain => true
  | some .cancellable => !b.isInterrupted task

def note (b : PoolBench) (n : PoolNote) : PoolBench := { b with notes := n :: b.notes }

/-- What an event of the pool means to the bench. -/
def observe (b : PoolBench) (event : PoolEvent Nat) : PoolBench :=
  let b :=
    match b.pool.entry? event with
    | some entry => if entry.level = .error then { b with workerLog := entry :: b.workerLog } else b
    | none => b
  match event with
  | .interrupted task => { b with interrupted := task :: b.interrupted }
  | .before worker task => b.note (.before task worker)
  | .ran worker task => b.note (.run task worker)
  | .after worker task panic => b.note (.after task worker panic)
  | .stopped _ true => { b with terminations := b.terminations + 1 }
  | _ => b

/-- One step of the pool, with what it means to the bench. -/
def act (b : PoolBench) (a : PoolAct Nat TaskStage) : Option (PoolBench × List (PoolEvent Nat)) :=
  (b.pool.step a).map fun (pool, events) => (events.foldl observe { b with pool }, events)

/-- The next step of a worker, `none` if it waits. -/
def nextAct (b : PoolBench) (worker : Nat) : Option (WorkerAct TaskStage) :=
  match b.pool.phase? worker with
  | some (.ready task) => some (.enter .atGate (b.script task).beforePanic)
  | some (.working task .atGate) =>
    if b.isHeld task then none else some (.advance .through)
  | some (.working task .through) =>
    some (.finish .through ((b.script task).panic.map PanicValue.message))
  | some (.worked task _ _) => some (.complete (b.script task).afterPanic)
  | _ => b.pool.nextRoutine? worker

/-- A task that comes to its gate joins the line; one that ends leaves a note. -/
def prepare (b : PoolBench) (worker : Nat) : WorkerAct TaskStage → PoolBench
  | .enter _ none =>
    match b.pool.phase? worker with
    | some (.ready task) => if b.isHeld task then { b with gates := b.gates ++ [task] } else b
    | _ => b
  | .advance _ =>
    match b.pool.phase? worker with
    | some (.working task _) => { b with gates := b.gates.filter (· ≠ task) }
    | _ => b
  | .finish _ _ =>
    match b.pool.phase? worker with
    | some (.working task _) => b.note (.ended task (b.isInterrupted task))
    | _ => b
  | _ => b

/-- Moves the first worker that can move. -/
def move (b : PoolBench) : List (Worker Nat TaskStage) → Option PoolBench
  | [] => none
  | w :: rest =>
    match b.nextAct w.id with
    | none => b.move rest
    | some a => ((b.prepare w.id a).act (.work w.id a)).map (·.1)

/-- Moves the workers until all of them wait, in at most `fuel` steps. -/
def settleWith : Nat → PoolBench → PoolBench
  | 0, b => b
  | fuel + 1, b =>
    match b.move b.pool.workers with
    | none => b
    | some b => settleWith fuel b

/-- A task takes nine steps of a worker, and a worker three more to leave. -/
def fuel (b : PoolBench) : Nat := 16 * (b.scripts.length + b.pool.workers.length + 1)

def settle (b : PoolBench) : PoolBench := settleWith b.fuel b

/-! ## Steps -/

def submit (b : PoolBench) (s : TaskScript) : PoolBench × Except PoolError Unit :=
  let task := b.scripts.length
  let refusal := b.failing.bind fun f => f.refusal (b.asked + 1)
  let listed := { b with scripts := b.scripts ++ [s] }
  match listed.act (.submit task refusal) with
  | none => (listed, .error .stopped)
  | some (after, events) =>
    let asked := if events.any PoolEvent.triesThread then b.asked + 1 else b.asked
    ({ after with asked }.settle, match PoolEvent.refusal? events with
      | some error => .error error
      | none => .ok ())

def letThrough (b : PoolBench) (task : Nat) : PoolBench :=
  let worker := b.pool.workers.find? fun w =>
    match w.phase with
    | .working t .atGate => t = task
    | _ => false
  let opened := { b with gates := b.gates.filter (· ≠ task) }
  match worker with
  | none => opened
  | some w =>
    match opened.act (.work w.id (.advance .through)) with
    | none => opened
    | some (b, _) => b

def release (b : PoolBench) (label : String) : PoolBench × Bool :=
  match b.gates.find? fun task => (b.script task).label = label with
  | none => (b, false)
  | some task => ((b.letThrough task).settle, true)

def releaseAll (b : PoolBench) : PoolBench × Nat :=
  ((b.gates.foldl letThrough b).settle, b.gates.length)

/-- Interrupts the running tasks one after the other. -/
def interruptAll : Nat → PoolBench → PoolBench
  | 0, b => b
  | n + 1, b =>
    match b.act (.stop .interrupt) with
    | none => b
    | some (b, _) => interruptAll n b

/-- What a step of the stop brings, or nothing if it is not possible. -/
def tryStop (b : PoolBench) (a : StopAct) : PoolBench :=
  match b.act (.stop a) with
  | none => b
  | some (b, _) => b

/-- Stops the pool: the tasks that never started, and whether all workers left. -/
def stop (b : PoolBench) : PoolBench × List Nat × Bool :=
  match b.act (.stop (.recheck false)) with
  | some (again, events) => (again, [], events.contains (.rechecked true))
  | none =>
    let drained := (b.tryStop .halt).tryStop .drain
    let interrupted := (interruptAll drained.pool.running.length drained).settle
    let looked := interrupted.tryStop (.look false)
    match looked.pool.stop with
    | some (.reported undone terminated) => (looked, undone, terminated)
    | some (.awaiting undone) => (looked.tryStop .abandon, undone, false)
    | _ => (looked, [], false)

/-- Ends the handle of the pool, which stops it. -/
def drop (b : PoolBench) : PoolBench :=
  { (if b.pool.isStopping then b else b.stop.1) with isDropped := true }

/-- Lets the wait of the first idle worker that may leave run out. -/
def expireOne (b : PoolBench) : Option PoolBench :=
  let idle := b.pool.workers.find? fun w =>
    match w.phase with
    | .waiting true => true
    | _ => false
  match idle with
  | none => none
  | some w => (b.act (.work w.id .expire)).map (·.1)

/-- Lets idle workers leave until `n` workers live, in at most `fuel` steps. -/
def awaitLiveWith (n : Nat) : Nat → PoolBench → PoolBench
  | 0, b => b
  | fuel + 1, b =>
    if b.pool.live = n then b
    else
      match b.expireOne with
      | none => b
      | some b => awaitLiveWith n fuel b.settle

/-- Lets idle workers leave until `n` workers live; whether it came to that. -/
def awaitLive (b : PoolBench) (n : Nat) : PoolBench × Bool :=
  let after := awaitLiveWith n (b.pool.workers.length + 1) b
  (after, after.pool.live = n)

/-- Answers a call on a pool whose handle is there. -/
def answer (b : PoolBench) : PoolStep → PoolBench × PoolAnswer
  | .submit s =>
    match b.submit s with
    | (b, .ok ()) => (b, .done)
    | (b, .error e) => (b, .refused e)
  | .release label =>
    let (b, found) := b.release label
    (b, .truth found)
  | .releaseAll =>
    let (b, count) := b.releaseAll
    (b, .count count)
  | .stop =>
    let (b, undone, terminated) := b.stop
    (b, .stopped (undone.map fun t => (b.script t).label) terminated)
  | .await => (b, .truth (b.pool.isTerminated false))
  | .awaitLive n =>
    let (b, reached) := b.awaitLive n
    (b, .truth reached)
  | .describe => (b, .text b.pool.description)
  | .name => (b, .name (b.pool.settings.namePrefix ++ "-"))
  | .drop => (b.drop, .done)

/-- Answers one call; gates can be opened without the handle. -/
def step (b : PoolBench) (s : PoolStep) : PoolBench × PoolAnswer :=
  if b.isDropped then
    match s with
    | .release _ | .releaseAll => b.answer s
    | .drop => (b, .done)
    | _ => (b, .gone)
  else b.answer s

/-! ## Looking -/

def isParallel (b : PoolBench) : Bool :=
  1 < b.pool.settings.max || 1 < b.pool.settings.core

/-- The notes since the last look: in order of happening for one worker, by task for several. -/
def collect (b : PoolBench) : PoolBench × List PoolNote :=
  let notes := b.notes.reverse
  let sorted := if b.isParallel then notes.mergeSort fun x y => x.task ≤ y.task else notes
  ({ b with notes := [] }, sorted)

/-- Whether the pool was seen to be terminated since the last look. -/
def collectTerminations (b : PoolBench) : PoolBench × Nat :=
  ({ b with terminations := 0 }, b.terminations)

end PoolBench

end SingleFlight.Rehearsal
