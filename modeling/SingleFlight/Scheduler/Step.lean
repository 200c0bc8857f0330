import SingleFlight.Flight.Run
import SingleFlight.Scheduler.State

/-!
# The steps of a scheduler

`Scheduler.step` is one indivisible step of one thread: up to its next use of state that it shares
with others. What the functions, the callbacks and the callers of the scheduler do, when idle
workers give up waiting and which threads cannot be created are choices of the environment, and so
is the order of the steps.
-/

namespace SingleFlight

variable [Payloads]

/-- One step. -/
inductive SchedulerAct
  /-- A thread requests an action. -/
  | apply (caller : Caller) (id : ActionId) (input : Payload)
  /-- A thread closes the scheduler. -/
  | close (caller : Caller)
  /-- The owner starts a job that was posted. -/
  | run (job : Posted)
  /-- A thread gets on with what it does for the scheduler; the error is what the creation of a
  thread would end with. -/
  | advance (caller : Caller) (refusal : Option IoError)
  /-- A function ends. -/
  | reply (caller : Caller) (reply : Reply)
  /-- A callback returns, or panics with a message. -/
  | leave (caller : Caller) (panic : Option String)
  /-- The wait of an idle worker runs out. -/
  | expire (worker : Nat)
  /-- The thread that closes the scheduler gives up waiting for the workers. -/
  | abandon (caller : Caller)

/-- How a run goes on after a step. -/
inductive RunStep
  | stay (stage : RunStage)
  | returned
  | panicked (message : String)

namespace Scheduler

/-! ## Ends of calls -/

/-- The innermost call returns. -/
def finish (s : Scheduler) (caller : Caller) (rest : List Call) (events : List SchedulerEvent) :
    Scheduler × List SchedulerEvent :=
  (s.setCalls caller rest, events ++ [.returned caller])

/-- The innermost call panics. -/
def fault (s : Scheduler) (caller : Caller) (rest : List Call) (message : String)
    (events : List SchedulerEvent) : Scheduler × List SchedulerEvent :=
  (s.setCalls caller rest, events ++ [.panicked caller message])

/-- The innermost call goes on with something else. -/
def goOn (s : Scheduler) (caller : Caller) (rest : List Call) (call : Call)
    (events : List SchedulerEvent) : Scheduler × List SchedulerEvent :=
  (s.setCalls caller (call :: rest), events)

/-! ## Requests -/

/-- The message for a request of an action that is not registered. -/
def unknownAction (id : ActionId) : String := "no action registered for " ++ id.text

/-- Checks a request and looks whether the scheduler is closed. -/
def apply (s : Scheduler) (caller : Caller) (id : ActionId) (input : Payload) :
    Scheduler × List SchedulerEvent :=
  match s.registration? id with
  | none => (s, [.panicked caller (unknownAction id)])
  | some r =>
    if !r.accepts input then (s, [.panicked caller (r.mismatch input)])
    else if s.isClosed then (s, [.dropped id .schedulerClosed, .returned caller])
    else if s.isSynchronous then
      (({ s with flights := s.flights ++ [Flight.of r input] }).push caller
        (.running s.flights.length .starting), [])
    else if caller = .owner then (s.push caller (.applying id input), [])
    else (s.push caller (.posting id input), [])

/-- Starts a posted job. -/
def run (s : Scheduler) : Posted → Scheduler × List SchedulerEvent
  | .request id input => (s.push .owner (.applying id input), [])
  | .handBack n =>
    if s.isClosed then (s, [.returned .owner]) else (s.push .owner (.finishing n), [])

/-- Looks for the flight of the action and starts one if there is none. -/
def lookUp (s : Scheduler) (caller : Caller) (rest : List Call) (id : ActionId)
    (input : Payload) : Scheduler × List SchedulerEvent :=
  if s.isClosed then s.finish caller rest [.dropped id .schedulerClosed]
  else
    match s.flightOf? id with
    | some n => s.goOn caller rest (.offering n input) []
    | none =>
      match s.registration? id with
      | none => s.fault caller rest (unknownAction id) []
      | some r =>
        let n := s.flights.length
        let started := { s with flights := s.flights ++ [Flight.of r input]
                                inFlight := s.inFlight ++ [(id, n)] }
        started.goOn caller rest (.submitting n) [.queued n id r.kind input]

/-- Offers the input to the flight. -/
def offer (s : Scheduler) (caller : Caller) (rest : List Call) (n : Nat) (input : Payload) :
    Option (Scheduler × List SchedulerEvent) :=
  (s.flights[n]?).map fun f =>
    match f.offer input with
    | .error message => s.fault caller rest message []
    | .ok (g, .unchanged) => (s.setFlight n g).finish caller rest [.coalesced n f.action]
    | .ok (g, .superseded) =>
      (s.setFlight n g).finish caller rest [.superseded n f.action input g.signal.generation]
    | .ok (g, .rearmed) =>
      (s.setFlight n g).goOn caller rest (.submitting n)
        [.rearmed n f.action input g.signal.generation]
    | .ok (g, .rejected) => (s.setFlight n g).finish caller rest [.dropped f.action .flightClosed]

/-- The message for a flight that the pool cannot take. -/
def submissionFault (pool : String) (id : ActionId) (error : PoolError) : String :=
  pool ++ " cannot run " ++ id.text ++ ": " ++ error.message

/-- Submits the flight to the pool. -/
def submit (s : Scheduler) (caller : Caller) (rest : List Call) (n : Nat)
    (refusal : Option IoError) : Option (Scheduler × List SchedulerEvent) :=
  match s.pool, s.flights[n]? with
  | some p, some f =>
    let (q, poolEvents) := p.submit n refusal
    let (s, events) := s.withPool q poolEvents
    match PoolEvent.refusal? poolEvents with
    | none => some (s.finish caller rest events)
    | some .stopped => some (s.finish caller rest (events ++ [.dropped f.action .poolStopped]))
    | some error => some (s.fault caller rest (submissionFault p.name f.action error) events)
  | _, _ => none

/-! ## Deliveries -/

/-- Takes the outcome of a flight that was handed back, unless the flight is not the one of its
action or runs again. -/
def collect (s : Scheduler) (caller : Caller) (rest : List Call) (n : Nat) :
    Option (Scheduler × List SchedulerEvent) :=
  (s.flights[n]?).map fun f =>
    if s.flightOf? f.action ≠ some n then s.finish caller rest [.stale n f.action]
    else
      match f.take with
      | (_, none) => s.finish caller rest [.awaiting n f.action]
      | (g, some outcome) =>
        let landed := { s.setFlight n g with
          inFlight := s.inFlight.filter (·.1 ≠ f.action) }
        landed.goOn caller rest (.delivering n outcome) [.delivered n f.action f.attempts]

/-- Takes the outcome of a flight that the caller ran itself. -/
def takeOutcome (s : Scheduler) (caller : Caller) (rest : List Call) (n : Nat) :
    Option (Scheduler × List SchedulerEvent) :=
  (s.flights[n]?).map fun f =>
    match f.take with
    | (_, none) => s.finish caller rest []
    | (g, some outcome) =>
      (s.setFlight n g).goOn caller rest (.delivering n outcome)
        [.delivered n f.action f.attempts]

/-- Gives the outcome to its callback. -/
def deliver (s : Scheduler) (caller : Caller) (rest : List Call) (n : Nat) (outcome : Outcome) :
    Option (Scheduler × List SchedulerEvent) :=
  (s.flights[n]?).bind fun f =>
    (s.registration? f.action).map fun r =>
      match r.deliver outcome with
      | .result o =>
        s.goOn caller rest (.calling n) [.notified caller n r.id r.kind (.result o)]
      | .sink failure =>
        s.goOn caller rest (.calling n) [.notified caller n r.id r.kind (.sink failure)]
      | .unreported failure =>
        s.finish caller rest [.notified caller n r.id r.kind (.unreported failure)]
      | .none => s.finish caller rest [.notified caller n r.id r.kind .none]

/-! ## Runs -/

/-- One step of a thread that runs a flight, `none` if it is inside of the function. -/
def runStep (s : Scheduler) (caller : Caller) (n : Nat) (stage : RunStage) :
    Option (Scheduler × RunStep × List SchedulerEvent) :=
  (s.flights[n]?).bind fun f =>
    match stage with
    | .starting =>
      match f.start with
      | (g, .refused) => some (s.setFlight n g, .returned, [])
      | (g, .panicked message) => some (s.setFlight n g, .panicked message, [])
      | (g, .invoke input token) =>
        (s.registration? f.action).map fun r =>
          match r.callInput input with
          | .ok input =>
            (s.setFlight n g, .stay (.invoking input token),
              [.called caller n f.action input token])
          | .error failure => (s.setFlight n g, .stay (.settling token (.error failure)), [])
    | .invoking _ _ => none
    | .settling token outcome =>
      match f.settle token outcome with
      | (g, .dropped) => some (s.setFlight n g, .returned, [])
      | (g, .again) =>
        some (s.setFlight n g, .stay .starting, [.retried n f.action token.started f.attempts])
      | (g, .stored) =>
        some (s.setFlight n g, .returned, [.completed n f.action token.started outcome.toBool])

/-- One step of a caller that runs a flight itself. -/
def runInline (s : Scheduler) (caller : Caller) (rest : List Call) (n : Nat) (stage : RunStage) :
    Option (Scheduler × List SchedulerEvent) :=
  (s.runStep caller n stage).map fun
    | (s, .stay stage, events) => s.goOn caller rest (.running n stage) events
    | (s, .returned, events) => s.goOn caller rest (.taking n) events
    | (s, .panicked message, events) => s.fault caller rest message events

/-! ## Workers -/

/-- A step of a worker in the pool, after the events of what it did for its flight. -/
def workerStep (s : Scheduler) (worker : Nat) (act : WorkerAct WorkStage)
    (events : List SchedulerEvent) : Option (Scheduler × List SchedulerEvent) :=
  s.pool.bind fun p =>
    (p.work worker act).map fun (q, poolEvents) =>
      let (s, more) := s.withPool q poolEvents
      (s, events ++ more)

/-- The hook before the task: binds the worker to the flight. -/
def enter (s : Scheduler) (worker : Nat) (name : String) (n : Nat) :
    Option (Scheduler × List SchedulerEvent) :=
  (s.flights[n]?).bind fun f =>
    (s.setFlight n (f.bind name)).workerStep worker (.enter (.running .starting) none)
      [.bound n f.action name]

/-- One step of a worker that runs its flight. -/
def runOnWorker (s : Scheduler) (worker n : Nat) (stage : RunStage) :
    Option (Scheduler × List SchedulerEvent) :=
  (s.runStep (.worker worker) n stage).bind fun
    | (s, .stay stage, events) => s.workerStep worker (.advance (.running stage)) events
    | (s, .returned, events) => s.workerStep worker (.finish .unbinding none) events
    | (s, .panicked message, events) =>
      s.workerStep worker (.finish (.failing message) (some message)) events

/-- One step of the hook after the task: a flight whose run broke down is completed, the worker is
unbound, and the flight is handed back unless the scheduler is closed. -/
def handBack (s : Scheduler) (worker : Nat) (name : String) (n : Nat) (stage : WorkStage) :
    Option (Scheduler × List SchedulerEvent) :=
  (s.flights[n]?).bind fun f =>
    match stage with
    | .failing message =>
      (s.setFlight n (f.fail message)).workerStep worker (.advance .unbinding) []
    | .unbinding => (s.setFlight n (f.unbind name)).workerStep worker (.advance .returning) []
    | .returning =>
      if s.isClosed then s.workerStep worker (.complete none) [.dropped f.action .schedulerClosed]
      else s.workerStep worker (.advance .posting) []
    | .posting =>
      s.workerStep worker (.complete none) [.posted (.worker worker) (.handBack n)]
    | .running _ => none

/-- One step of a worker that is not inside of a call. -/
def advanceWorker (s : Scheduler) (worker : Nat) : Option (Scheduler × List SchedulerEvent) :=
  s.pool.bind fun p =>
    match p.phase? worker with
    | some (.ready n) => s.enter worker (p.workerName worker) n
    | some (.working n (.running stage)) => s.runOnWorker worker n stage
    | some (.worked n _ stage) => s.handBack worker (p.workerName worker) n stage
    | _ => (p.nextRoutine? worker).bind fun act => s.workerStep worker act []

/-! ## Closing -/

/-- Closes the scheduler to requests and takes the flights out of the air. -/
def close (s : Scheduler) (caller : Caller) : Scheduler × List SchedulerEvent :=
  if s.isClosed then (s, [.returned caller])
  else
    let flights := s.inFlight.map (·.2)
    let stage := if s.isSynchronous then .dropping flights else .stopping
    ({ s with isClosed := true, inFlight := [], closing := some { flights, stage } }.push caller
      .closing, [])

/-- One step of stopping the pool. -/
def stopStep (s : Scheduler) (act : StopAct) : Option (Scheduler × List SchedulerEvent) :=
  s.pool.bind fun p => (p.halting act).map fun (q, events) => s.withPool q events

/-- One step of the call that closes the scheduler. -/
def advanceClosing (s : Scheduler) (caller : Caller) (rest : List Call) :
    Option (Scheduler × List SchedulerEvent) :=
  s.closing.bind fun c =>
    let staged (stage : ClosingStage) : Scheduler := { s with closing := some { c with stage } }
    match c.stage with
    | .stopping =>
      s.pool.bind fun p =>
        match p.report? with
        | some (undone, _) => some (staged (.undoing undone), [])
        | none => s.stopStep (p.nextStop caller.isWorker)
    | .undoing (n :: more) => some ((staged (.undoing more)).closeFlight n, [])
    | .undoing [] =>
      (s.pool.bind Pool.report?).map fun (undone, terminated) =>
        (staged (.dropping c.flights), [.poolStopped undone.length terminated])
    | .dropping (n :: more) => some ((staged (.dropping more)).closeFlight n, [])
    | .dropping [] => some (s.finish caller rest [.closed c.flights.length])

/-- Whether the innermost call waits for the workers to leave. -/
def isAwaiting (s : Scheduler) (caller : Caller) : Bool :=
  match s.callsOf caller, s.pool.bind (·.stop) with
  | .closing :: _, some (.awaiting _) => true
  | _, _ => false

/-! ## Steps -/

/-- One step of the innermost call of a thread. -/
def advanceCall (s : Scheduler) (caller : Caller) (refusal : Option IoError) (rest : List Call) :
    Call → Option (Scheduler × List SchedulerEvent)
  | .posting id input => some (s.finish caller rest [.posted caller (.request id input)])
  | .applying id input => some (s.lookUp caller rest id input)
  | .offering n input => s.offer caller rest n input
  | .submitting n => s.submit caller rest n refusal
  | .finishing n => s.collect caller rest n
  | .running n stage => s.runInline caller rest n stage
  | .taking n => s.takeOutcome caller rest n
  | .delivering n outcome => s.deliver caller rest n outcome
  | .calling _ => none
  | .closing => s.advanceClosing caller rest

/-- A thread gets on with what it does for the scheduler, `none` if it cannot. -/
def advance (s : Scheduler) (caller : Caller) (refusal : Option IoError) :
    Option (Scheduler × List SchedulerEvent) :=
  match s.callsOf caller, caller with
  | call :: rest, _ => s.advanceCall caller refusal rest call
  | [], .worker w => s.advanceWorker w
  | [], _ => none

/-- The function that a thread is inside of ends. -/
def reply (s : Scheduler) (caller : Caller) (answer : Reply) :
    Option (Scheduler × List SchedulerEvent) :=
  let settling (n : Nat) (token : Token) : Option RunStage :=
    (s.flights[n]?).bind fun f =>
      (s.registration? f.action).map fun r =>
        .settling token (Flight.caught (r.outcome answer))
  match s.callsOf caller, caller with
  | .running n (.invoking _ token) :: rest, _ =>
    (settling n token).map fun stage => s.goOn caller rest (.running n stage) []
  | [], .worker w =>
    match s.pool.bind (·.phase? w) with
    | some (.working n (.running (.invoking _ token))) =>
      (settling n token).bind fun stage => s.workerStep w (.advance (.running stage)) []
    | _ => none
  | _, _ => none

/-- The callback that a thread is inside of returns or panics. -/
def leave (s : Scheduler) (caller : Caller) (panic : Option String) :
    Option (Scheduler × List SchedulerEvent) :=
  match s.callsOf caller, panic with
  | .calling _ :: rest, none => some (s.finish caller rest [])
  | .calling _ :: rest, some message => some (s.fault caller rest message [])
  | _, _ => none

/-- One step, `none` if it is not possible now. -/
def step (s : Scheduler) : SchedulerAct → Option (Scheduler × List SchedulerEvent)
  | .apply caller id input => if s.isFree caller then some (s.apply caller id input) else none
  | .close caller => if s.isFree caller then some (s.close caller) else none
  | .run job => if s.isFree .owner && !s.isSynchronous then some (s.run job) else none
  | .advance caller refusal => s.advance caller refusal
  | .reply caller answer => s.reply caller answer
  | .leave caller panic => s.leave caller panic
  | .expire worker => s.workerStep worker .expire []
  | .abandon caller => if s.isAwaiting caller then s.stopStep .abandon else none

end Scheduler

end SingleFlight
