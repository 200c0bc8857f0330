import SingleFlight.Channel
import SingleFlight.Pool.Settings

/-!
# The worker pool

A pool runs tasks on a bounded number of workers. Workers are started by submissions: up to the
core size at once, beyond it only when the queue is full. An idle worker leaves after a while,
unless it is a core worker that has to stay. A stop takes the queued tasks back, interrupts the
running ones and waits for the workers to leave.

`Pool.step` is one indivisible step of one thread: a submission as a whole, or a worker or the
stopping thread up to its next use of shared state. Everything else is an order of such steps.
-/

namespace SingleFlight

/-- Where a worker is in its loop; `σ` is how far it is inside of a task. -/
inductive WorkerPhase (τ σ : Type)
  /-- It has a task in hand that is not entered among the running ones. -/
  | holding (task : τ)
  /-- It is about to decide whether to leave or how long to wait. -/
  | seeking
  /-- It is about to look at the queue. -/
  | listening (timed : Bool)
  /-- It waits for a task. -/
  | waiting (timed : Bool)
  /-- Its wait ran out. -/
  | expired
  /-- It found the queue closed. -/
  | disconnected
  /-- Its task is entered; it is about to look whether the pool is stopping. -/
  | recorded (task : τ)
  /-- It is about to call the hook before the task. -/
  | ready (task : τ)
  /-- It is inside of the task. -/
  | working (task : τ) (stage : σ)
  /-- The task returned or panicked; it is inside of the hook after the task. -/
  | worked (task : τ) (panic : Option String) (stage : σ)
  /-- It is about to strike the task off the running ones. -/
  | leaving (task : τ)
  /-- It has left the pool. -/
  | retired
deriving DecidableEq, Repr

/-- A worker with its number. -/
structure Worker (τ σ : Type) where
  id : Nat
  phase : WorkerPhase τ σ
deriving DecidableEq, Repr

/-- How far the thread that stops the pool has come. -/
inductive StopStage (τ : Type)
  /-- No more submissions are taken. -/
  | halted
  /-- The queue is taken back; the tasks in `rest` are still to be interrupted. -/
  | interrupting (undone rest : List τ)
  /-- It waits for workers that it has seen not to have left. -/
  | awaiting (undone : List τ)
  | reported (undone : List τ) (terminated : Bool)
deriving DecidableEq, Repr

/-- A pool of workers that run tasks of type `τ`. -/
structure Pool (τ σ : Type) where
  name : String
  settings : PoolSettings
  channel : Channel τ
  /-- The number of workers that have not left. -/
  live : Nat := 0
  /-- The number of the next worker. -/
  nextWorker : Nat := 1
  /-- The tasks that are being run, by worker. -/
  running : List (Nat × τ) := []
  workers : List (Worker τ σ) := []
  stop : Option (StopStage τ) := none

/-- What happens in a pool. -/
inductive PoolEvent (τ : Type)
  | accepted (task : τ)
  | refused (task : τ) (error : PoolError)
  | started (worker : Nat)
  | interrupted (task : τ)
  /-- The hook before the task is called. -/
  | before (worker : Nat) (task : τ)
  /-- The task itself is called. -/
  | ran (worker : Nat) (task : τ)
  /-- The task or the hook before it panicked. -/
  | panicked (worker : Nat) (task : τ) (message : String)
  /-- The hook after the task is called. -/
  | after (worker : Nat) (task : τ) (panic : Option String)
  | hookPanicked (worker : Nat) (message : String)
  | retired (worker : Nat)
  | stopped (undone : List τ) (terminated : Bool)
  /-- A later stop looked whether all workers have left. -/
  | rechecked (terminated : Bool)
deriving DecidableEq, Repr

/-- Why a task was refused, if one of the events says so. -/
def PoolEvent.refusal? : List (PoolEvent τ) → Option PoolError
  | [] => none
  | .refused _ error :: _ => some error
  | _ :: rest => refusal? rest

/-- Whether the creation of a thread was tried. -/
def PoolEvent.triesThread : PoolEvent τ → Bool
  | .started _ => true
  | .refused _ (.spawn _) => true
  | _ => false

/-- One step of a worker. -/
inductive WorkerAct (σ : Type)
  /-- Decides whether to leave or how long to wait. -/
  | seek
  /-- Looks at the queue. -/
  | receive
  /-- Its wait runs out. -/
  | expire
  /-- Decides what to do after a wait that ran out. -/
  | decide
  /-- Leaves a closed queue. -/
  | leave
  /-- Enters its task among the running ones. -/
  | record
  /-- Interrupts its task if the pool is stopping. -/
  | heed
  /-- Calls the hook before the task, which may panic, and then the task. -/
  | enter (stage : σ) (panic : Option String)
  /-- Gets on inside of the task or of the hook after it. -/
  | advance (stage : σ)
  /-- Returns from the task, or panics out of it. -/
  | finish (stage : σ) (panic : Option String)
  /-- Returns from the hook after the task, or panics out of it. -/
  | complete (panic : Option String)
  /-- Strikes its task off the running ones. -/
  | release
deriving DecidableEq, Repr

/-- One step of the thread that stops the pool. -/
inductive StopAct
  /-- Closes the pool to submissions. -/
  | halt
  /-- Takes the queued tasks back. -/
  | drain
  /-- Interrupts one running task. -/
  | interrupt
  /-- Looks whether the workers have left; a worker that stops its own pool is not waited for. -/
  | look (onWorker : Bool)
  /-- Gives up waiting. -/
  | abandon
  /-- A stop of a pool that is stopping already only looks whether the workers have left. -/
  | recheck (onWorker : Bool)
deriving DecidableEq, Repr

/-- One step in a pool. -/
inductive PoolAct (τ σ : Type)
  /-- A submission; the error is what the creation of a thread would end with. -/
  | submit (task : τ) (refusal : Option IoError)
  | work (worker : Nat) (act : WorkerAct σ)
  | stop (act : StopAct)
deriving DecidableEq, Repr

namespace Pool

/-- A pool without workers. -/
def create (name : String) (settings : PoolSettings) : Pool τ σ :=
  { name, settings, channel := { capacity := settings.capacity } }

/-! ## Reading -/

def isStopping (p : Pool τ σ) : Bool := p.stop.isSome

/-- The tasks in the queue, oldest first. -/
def queue (p : Pool τ σ) : List τ := p.channel.buffer

def queued (p : Pool τ σ) : Nat := p.queue.length

def phase? (p : Pool τ σ) (worker : Nat) : Option (WorkerPhase τ σ) :=
  (p.workers.find? (·.id = worker)).map (·.phase)

/-- The name of a worker. -/
def workerName (p : Pool τ σ) (worker : Nat) : String :=
  p.name ++ "-worker-" ++ toString worker

/-- Whether every worker has left, except the asking one if it is a worker itself. -/
def isTerminated (p : Pool τ σ) (onWorker : Bool) : Bool :=
  p.live ≤ if onWorker then 1 else 0

/-- The pool as text. -/
def description (p : Pool τ σ) : String :=
  Text.fields "WorkerPool"
    [ ("name", Text.quoted p.name),
      ("live", toString p.live),
      ("queued", toString p.queued),
      ("stopped", if p.isStopping then "true" else "false") ]

/-- The tasks that never started and whether all workers left, once the pool is stopped. -/
def report? (p : Pool τ σ) : Option (List τ × Bool) :=
  match p.stop with
  | some (.reported undone terminated) => some (undone, terminated)
  | _ => none

/-! ## Submissions -/

/-- Starts a worker, with a first task or without. -/
def launch (p : Pool τ σ) (first : Option τ) : Pool τ σ :=
  let phase :=
    match first with
    | some task => .holding task
    | none => .seeking
  { p with
    live := p.live + 1
    nextWorker := p.nextWorker + 1
    workers := p.workers ++ [{ id := p.nextWorker, phase }] }

/-- Starts a worker for a task, unless no thread can be created. -/
def spawn (p : Pool τ σ) (task : τ) (first : Option τ) (refusal : Option IoError) :
    Pool τ σ × List (PoolEvent τ) :=
  match refusal with
  | some error => (p, [.refused task (.spawn error)])
  | none => (p.launch first, [.started p.nextWorker, .accepted task])

def setPhase (p : Pool τ σ) (worker : Nat) (phase : WorkerPhase τ σ) : Pool τ σ :=
  { p with workers := p.workers.map fun w => if w.id = worker then { w with phase } else w }

/-- Hands a task to a worker, or refuses it. A task that was queued while no worker lives gets one;
if none can be started the submission is refused although the task stays in the queue. -/
def submit (p : Pool τ σ) (task : τ) (refusal : Option IoError) : Pool τ σ × List (PoolEvent τ) :=
  if p.isStopping then (p, [.refused task .stopped])
  else if p.live < p.settings.core then p.spawn task (some task) refusal
  else
    match p.channel.send task with
    | (channel, .handed worker) =>
      (({ p with channel }).setPhase worker (.holding task), [.accepted task])
    | (channel, .buffered) =>
      let queued := { p with channel }
      if p.live = 0 then queued.spawn task none refusal else (queued, [.accepted task])
    | (_, .full) =>
      if p.live < p.settings.max then p.spawn task (some task) refusal
      else (p, [.refused task (.queueFull p.settings.capacity)])
    | (_, .closed) => (p, [.refused task .stopped])

/-! ## Workers -/

/-- A worker leaves the pool. -/
def retire (p : Pool τ σ) (worker : Nat) : Pool τ σ × List (PoolEvent τ) :=
  (({ p with live := p.live - 1 }).setPhase worker .retired, [.retired worker])

/-- The event of a panic inside of a task, if there was one. -/
def panicEvents (worker : Nat) (task : τ) : Option String → List (PoolEvent τ)
  | some message => [.panicked worker task message]
  | none => []

/-- One step of a worker, `none` if the worker is not at that point. -/
def work (p : Pool τ σ) (worker : Nat) (act : WorkerAct σ) :
    Option (Pool τ σ × List (PoolEvent τ)) :=
  match p.phase? worker, act with
  | some .seeking, .seek =>
    if p.isStopping then some (p.retire worker)
    else
      let timed : Bool := p.settings.coreTimeout || p.settings.core < p.live
      some (p.setPhase worker (.listening timed), [])
  | some (.listening timed), .receive =>
    match p.channel.receive worker with
    | (channel, .value task) => some (({ p with channel }).setPhase worker (.holding task), [])
    | (channel, .waiting) => some (({ p with channel }).setPhase worker (.waiting timed), [])
    | (channel, .closed) => some (({ p with channel }).setPhase worker .disconnected, [])
  | some (.waiting _), .receive =>
    if p.channel.isOpen then none else some (p.setPhase worker .disconnected, [])
  | some (.waiting true), .expire =>
    some (({ p with channel := p.channel.withdraw worker }).setPhase worker .expired, [])
  | some .expired, .decide =>
    if 1 < p.live || p.queue.isEmpty then some (p.retire worker)
    else some (p.setPhase worker .seeking, [])
  | some .disconnected, .leave => some (p.retire worker)
  | some (.holding task), .record =>
    let running := p.running.filter (·.1 ≠ worker) ++ [(worker, task)]
    some (({ p with running }).setPhase worker (.recorded task), [])
  | some (.recorded task), .heed =>
    let events := if p.isStopping then [.interrupted task] else []
    some (p.setPhase worker (.ready task), events)
  | some (.ready task), .enter stage none =>
    some (p.setPhase worker (.working task stage), [.before worker task, .ran worker task])
  | some (.ready task), .enter stage (some message) =>
    some (p.setPhase worker (.worked task (some message) stage),
      [.before worker task, .panicked worker task message])
  | some (.working task _), .advance stage => some (p.setPhase worker (.working task stage), [])
  | some (.worked task panic _), .advance stage =>
    some (p.setPhase worker (.worked task panic stage), [])
  | some (.working task _), .finish stage panic =>
    some (p.setPhase worker (.worked task panic stage), panicEvents worker task panic)
  | some (.worked task panic _), .complete hookPanic =>
    some (p.setPhase worker (.leaving task),
      .after worker task panic ::
        match hookPanic with
        | some message => [.hookPanicked worker message]
        | none => [])
  | some (.leaving _), .release =>
    let running := p.running.filter (·.1 ≠ worker)
    some (({ p with running }).setPhase worker .seeking, [])
  | _, _ => none

/-- The step that a worker takes outside of its task and of the hooks, `none` if it waits or is
inside of them. -/
def routine? : WorkerPhase τ σ → Option (WorkerAct σ)
  | .holding _ => some .record
  | .seeking => some .seek
  | .listening _ => some .receive
  | .expired => some .decide
  | .disconnected => some .leave
  | .recorded _ => some .heed
  | .leaving _ => some .release
  | _ => none

/-- The step that a worker takes, with a look at the queue where it waits for the queue's end. -/
def nextRoutine? (p : Pool τ σ) (worker : Nat) : Option (WorkerAct σ) :=
  match p.phase? worker with
  | some (.waiting _) => if p.channel.isOpen then none else some .receive
  | some phase => routine? phase
  | none => none

/-! ## Stopping -/

/-- The step that the thread that stops the pool takes next; a worker that stops its own pool is
not waited for. -/
def nextStop (p : Pool τ σ) (onWorker : Bool) : StopAct :=
  match p.stop with
  | none => .halt
  | some .halted => .drain
  | some (.interrupting _ (_ :: _)) => .interrupt
  | some _ => .look onWorker

/-- One step of the thread that stops the pool, `none` if it is not at that point. -/
def halting (p : Pool τ σ) (act : StopAct) : Option (Pool τ σ × List (PoolEvent τ)) :=
  match p.stop, act with
  | none, .halt => some ({ p with stop := some .halted }, [])
  | some .halted, .drain =>
    let (channel, undone) := p.channel.close
    some ({ p with channel, stop := some (.interrupting undone (p.running.map (·.2))) }, [])
  | some (.interrupting undone (task :: rest)), .interrupt =>
    some ({ p with stop := some (.interrupting undone rest) }, [.interrupted task])
  | some (.interrupting undone []), .look onWorker =>
    if p.isTerminated onWorker then
      some ({ p with stop := some (.reported undone true) }, [.stopped undone true])
    else some ({ p with stop := some (.awaiting undone) }, [])
  | some (.awaiting undone), .look onWorker =>
    if p.isTerminated onWorker then
      some ({ p with stop := some (.reported undone true) }, [.stopped undone true])
    else none
  | some (.awaiting undone), .abandon =>
    some ({ p with stop := some (.reported undone false) }, [.stopped undone false])
  | some _, .recheck onWorker => some (p, [.rechecked (p.isTerminated onWorker)])
  | _, _ => none

/-- One step in the pool, `none` if it is not possible now. -/
def step (p : Pool τ σ) : PoolAct τ σ → Option (Pool τ σ × List (PoolEvent τ))
  | .submit task refusal => some (p.submit task refusal)
  | .work worker act => p.work worker act
  | .stop act => p.halting act

end Pool

end SingleFlight
