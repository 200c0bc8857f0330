import SingleFlight.OwnerLoop
import SingleFlight.Rehearsal.ActionScript
import SingleFlight.Rehearsal.PoolBench
import SingleFlight.Scheduler.Entries
import SingleFlight.Scheduler.Step

/-!
# A scheduler on the bench

A scheduler whose actions are scripted, driven step by step. The calling thread finishes what it
does for the scheduler before the workers move, except where it waits for them; then the workers
move until each of them waits, for a flight or at a gate. This is one order of the scheduler's
steps among many.
-/

namespace SingleFlight.Rehearsal

/-- A scripted function that is being called. -/
structure FunctionTurn where
  action : ActionId
  flight : Nat
  token : Token
  /-- The input as text. -/
  text : String
  /-- The number of this call of the function. -/
  call : Nat
  rest : List BodyItem
  /-- Whether it waits at the gate that comes first in `rest`. -/
  atGate : Bool := false
  /-- Whether that gate was opened. -/
  isOpened : Bool := false

/-- A scripted callback that is being called. -/
structure CallbackTurn where
  action : ActionId
  rest : List CallbackItem

/-- Scripted code that is being called. -/
inductive Script
  | function (turn : FunctionTurn)
  | callback (turn : CallbackTurn)

/-- Scripted code on its thread. -/
structure Turn where
  caller : Caller
  script : Script
  /-- The panic of a call that it made. -/
  fault : Option String := none

/-- A scheduler with its scripts. -/
structure SchedulerBench where
  scheduler : Scheduler
  scripts : List ActionScript
  failing : Option FailingThreads := none
  /-- Whether the settings allow for several workers. -/
  isParallel : Bool := false
  /-- How many threads were asked for. -/
  asked : Nat := 0
  /-- Whether scripted code can reach the scheduler. -/
  isReachable : Bool := false
  /-- Whether the last handle is gone. -/
  isGone : Bool := false
  /-- The calls of functions by action, newest first. -/
  calls : List ActionId := []
  /-- The deliveries by action, newest first. -/
  deliveries : List ActionId := []
  /-- Innermost first on each thread. -/
  turns : List Turn := []
  /-- What the call of a thread that is not in scripted code ended with. -/
  answer : Option (Except String Unit) := none
  /-- What functions noted, newest first. -/
  functionNotes : List FunctionNote := []
  /-- What callbacks noted, newest first. -/
  callbackNotes : List CallbackNote := []
  /-- What threads other than workers logged, newest first. -/
  log : List LogEntry := []
  /-- What workers logged, newest first. -/
  workerLog : List LogEntry := []
  /-- The jobs that workers posted with the actions that they ran, newest first. -/
  workerJobs : List (ActionId × Posted) := []
  /-- The jobs that other threads posted, newest first. -/
  otherJobs : List Posted := []

namespace SchedulerBench

def script (b : SchedulerBench) (id : ActionId) : ActionScript := b.scripts[id.index]?.getD {}

def threadName (b : SchedulerBench) : Caller → String
  | .owner => OwnerLoop.ownerName
  | .worker w => (b.scheduler.pool.map fun p => p.workerName w).getD ""
  | .other _ => ""

def turn? (b : SchedulerBench) (caller : Caller) : Option Turn :=
  b.turns.find? (·.caller = caller)

/-- Changes the innermost scripted code of a thread. -/
def setTurn (b : SchedulerBench) (turn : Turn) : SchedulerBench :=
  let rec replace : List Turn → List Turn
    | [] => []
    | t :: rest => if t.caller = turn.caller then turn :: rest else t :: replace rest
  { b with turns := replace b.turns }

/-- Ends the innermost scripted code of a thread. -/
def dropTurn (b : SchedulerBench) (caller : Caller) : SchedulerBench :=
  { b with turns := b.turns.eraseP (·.caller = caller) }

/-- What the token of a running function is compared with. -/
def signal (b : SchedulerBench) (flight : Nat) : Signal :=
  ((b.scheduler.flights[flight]?).map (·.signal)).getD {}

/-! ## Events -/

def write (b : SchedulerBench) (caller : Caller) (entry : LogEntry) : SchedulerBench :=
  if caller.isWorker then { b with workerLog := entry :: b.workerLog }
  else { b with log := entry :: b.log }

def begin (b : SchedulerBench) (caller : Caller) (flight : Nat) (id : ActionId) (input : Payload)
    (token : Token) : SchedulerBench :=
  let script := b.script id
  let calls := id :: b.calls
  let text := input.description
  let thread := if script.showsThread then some (b.threadName caller) else none
  let turn : FunctionTurn :=
    { action := id, flight, token, text, call := calls.count id, rest := script.body }
  { b with
    calls
    functionNotes := .started id text token.started thread :: b.functionNotes
    turns := { caller, script := .function turn } :: b.turns }

def callBack (b : SchedulerBench) (caller : Caller) (id : ActionId) (note : CallbackNote) :
    SchedulerBench :=
  let script := b.script id
  let deliveries := id :: b.deliveries
  let rest := if deliveries.count id ≤ script.times then script.callback else []
  { b with
    deliveries
    callbackNotes := note :: b.callbackNotes
    turns := { caller, script := .callback { action := id, rest } } :: b.turns }

/-- The action that a worker runs that posts a job. -/
def actionOf (b : SchedulerBench) (caller : Caller) (job : Posted) : ActionId :=
  match job, (b.turn? caller).map Turn.script with
  | .request _ _, some (.function turn) => turn.action
  | .request id _, _ => id
  | .handBack n, _ => ((b.scheduler.flights[n]?).map (·.action)).getD default

/-- What an event of a thread's step means to the bench. -/
def observe (caller : Caller) (b : SchedulerBench) (event : SchedulerEvent) : SchedulerBench :=
  let b :=
    match b.scheduler.entry? caller event with
    | some entry => b.write caller entry
    | none => b
  match event with
  | .returned c =>
    if (b.turn? c).isSome then b else { b with answer := some (.ok ()) }
  | .panicked c message =>
    match b.turn? c with
    | some turn => b.setTurn { turn with fault := some message }
    | none => { b with answer := some (.error message) }
  | .posted c job =>
    if c.isWorker then { b with workerJobs := (b.actionOf c job, job) :: b.workerJobs }
    else { b with otherJobs := job :: b.otherJobs }
  | .called c flight id input token => b.begin c flight id input token
  | .notified c _ id _ (.result outcome) => b.callBack c id (.result id outcome)
  | .notified c _ id _ (.sink failure) => b.callBack c id (.failure id failure)
  | .pool event => if event.triesThread then { b with asked := b.asked + 1 } else b
  | _ => b

/-- One step of the scheduler, taken by a thread, with what it means to the bench. -/
def act (b : SchedulerBench) (caller : Caller) (a : SchedulerAct) : Option SchedulerBench :=
  (b.scheduler.step a).map fun (scheduler, events) =>
    events.foldl (observe caller) { b with scheduler }

/-! ## Scripted code -/

def endFunction (b : SchedulerBench) (caller : Caller) (turn : FunctionTurn) (reply : Reply) :
    Option SchedulerBench :=
  let how : FunctionEnd :=
    match reply with
    | .value _ => .ok
    | .failed chain => .failed chain.message
    | .panicked _ => .panicked
  let state := tokenState turn.token (b.signal turn.flight)
  let noted := { b with functionNotes := .ended turn.action how state :: b.functionNotes }
  (noted.dropTurn caller).act caller (.reply caller reply)

/-- A function returns if its token is cancelled, and goes on with the rest otherwise. -/
def checkToken (b : SchedulerBench) (caller : Caller) (turn : FunctionTurn)
    (rest : List BodyItem) : Option SchedulerBench :=
  match turn.token.check (b.signal turn.flight) with
  | some reason => b.endFunction caller turn (.failed (.ofCancelled reason))
  | none =>
    let passed := { turn with rest, atGate := false, isOpened := false }
    some (b.setTurn { caller, script := .function passed })

/-- The next thing that a function does, `none` if it waits. -/
def moveFunction (b : SchedulerBench) (caller : Caller) (turn : FunctionTurn) :
    Option SchedulerBench :=
  let goOn (rest : List BodyItem) : SchedulerBench :=
    let passed := { turn with rest, atGate := false, isOpened := false }
    b.setTurn { caller, script := .function passed }
  let arrive : SchedulerBench :=
    b.setTurn { caller, script := .function { turn with atGate := true } }
  match turn.rest with
  | [] => b.endFunction caller turn ((b.script turn.action).reply.reply turn.text turn.call)
  | .check :: rest => b.checkToken caller turn rest
  | .gate :: rest =>
    if !caller.isWorker || turn.isOpened then some (goOn rest)
    else if turn.atGate then none
    else some arrive
  | .checkedGate :: rest =>
    if !caller.isWorker then some (goOn rest)
    else if turn.isOpened || turn.token.isCancelled (b.signal turn.flight) then
      b.checkToken caller turn rest
    else if turn.atGate then none
    else some arrive
  | .close :: rest =>
    if b.isReachable then (goOn rest).act caller (.close caller) else some (goOn rest)
  | .apply id input limit :: rest =>
    if b.isReachable && turn.call ≤ limit then (goOn rest).act caller (.apply caller id input)
    else some (goOn rest)

/-- What the scheduler tells a callback. -/
def probe (b : SchedulerBench) (caller : Caller) (id : ActionId) : Except String Probe := do
  let flights ← b.scheduler.flightCount caller
  let isInFlight ← b.scheduler.isInFlight caller id
  let saved ← b.scheduler.backup caller
  return { flights, isInFlight, saved, isClosed := b.scheduler.isClosed,
           isOwner := caller = .owner }

def endCallback (b : SchedulerBench) (caller : Caller) (panic : Option String) :
    Option SchedulerBench :=
  (b.dropTurn caller).act caller (.leave caller panic)

/-- The next thing that a callback does. -/
def moveCallback (b : SchedulerBench) (caller : Caller) (turn : CallbackTurn) :
    Option SchedulerBench :=
  let goOn (rest : List CallbackItem) : SchedulerBench :=
    b.setTurn { caller, script := .callback { turn with rest } }
  match turn.rest with
  | [] => b.endCallback caller none
  | .panic message :: _ => b.endCallback caller (some message)
  | .apply id input :: rest =>
    if b.isReachable then (goOn rest).act caller (.apply caller id input) else some (goOn rest)
  | .close :: rest =>
    if b.isReachable then (goOn rest).act caller (.close caller) else some (goOn rest)
  | .probe :: rest =>
    if b.isReachable then
      match b.probe caller turn.action with
      | .error message => b.endCallback caller (some message)
      | .ok probe =>
        some { goOn rest with callbackNotes := .probed turn.action probe :: b.callbackNotes }
    else some (goOn rest)

/-- The next thing that scripted code does, `none` if it waits. -/
def moveTurn (b : SchedulerBench) (turn : Turn) : Option SchedulerBench :=
  match turn.script, turn.fault with
  | .function f, some message => b.endFunction turn.caller f (.panicked (.text message))
  | .function f, none => b.moveFunction turn.caller f
  | .callback _, some message => b.endCallback turn.caller (some message)
  | .callback c, none => b.moveCallback turn.caller c

/-! ## Moving -/

/-- What the creation of the next thread ends with, if it fails. -/
def refusal (b : SchedulerBench) : Option IoError :=
  b.failing.bind fun f => f.refusal (b.asked + 1)

/-- The next step of a thread, `none` if it waits. -/
def move (b : SchedulerBench) (caller : Caller) : Option SchedulerBench :=
  match b.turn? caller with
  | some turn =>
    if b.scheduler.isFree caller then b.moveTurn turn
    else b.act caller (.advance caller b.refusal)
  | none => b.act caller (.advance caller b.refusal)

/-- No rehearsal takes more steps. -/
def patience : Nat := 1000000

def workers (b : SchedulerBench) : List Caller :=
  (b.scheduler.pool.map fun p => p.workers.map fun w => Caller.worker w.id).getD []

/-- Moves the workers until all of them wait, in at most `fuel` steps. One that waits for the others
to leave gives up last. -/
def settleWith : Nat → SchedulerBench → SchedulerBench
  | 0, b => b
  | fuel + 1, b =>
    match b.workers.findSome? b.move with
    | some b => settleWith fuel b
    | none =>
      match b.workers.findSome? fun w => b.act w (.abandon w) with
      | some b => settleWith fuel b
      | none => b

def settle (b : SchedulerBench) : SchedulerBench := settleWith patience b

/-- Whether a callback is back from a request that it made. -/
def isBack (before after : SchedulerBench) (caller : Caller) : Bool :=
  match after.turn? caller with
  | some { script := .callback _, .. } =>
    after.scheduler.isFree caller && !before.scheduler.isFree caller
  | _ => false

/-- Moves a thread until its call ended, in at most `fuel` steps. -/
def driveWith (caller : Caller) : Nat → SchedulerBench → SchedulerBench
  | 0, b => b
  | fuel + 1, b =>
    if b.answer.isSome then b
    else
      match b.move caller with
      | some after =>
        driveWith caller fuel (if isBack b after caller then after.settle else after)
      | none =>
        let settled := b.settle
        match settled.move caller with
        | some after => driveWith caller fuel after
        | none =>
          match settled.act caller (.abandon caller) with
          | some after => driveWith caller fuel after
          | none => settled

/-- A call by a thread that is not in scripted code. The workers do not move afterwards. -/
def call (b : SchedulerBench) (caller : Caller) (a : SchedulerAct) :
    SchedulerBench × Except String Unit :=
  match { b with answer := none }.act caller a with
  | none => (b, .ok ())
  | some started =>
    let ended := driveWith caller patience started
    ({ ended with answer := none }, ended.answer.getD (.ok ()))

/-! ## Steps -/

/-- Makes the requests of the start one after the other; the first that panics ends the start. -/
def start (b : SchedulerBench) : List (ActionId × Payload) → SchedulerBench × Except String Unit
  | [] => (b, .ok ())
  | (id, input) :: rest =>
    match b.call .owner (.apply .owner id input) with
    | (b, .ok ()) => b.start rest
    | (b, .error message) => (b, .error message)

def drop (b : SchedulerBench) : SchedulerBench :=
  let unreachable := { b with isReachable := false }
  { (unreachable.call .owner (.close .owner)).1.settle with isGone := true }

def isWaiting (turn : Turn) : Bool :=
  match turn.script with
  | .function f => f.atGate && !f.isOpened
  | .callback _ => false

def openGate (turn : Turn) : Turn :=
  match turn.script with
  | .function f => { turn with script := .function { f with isOpened := true } }
  | .callback _ => turn

/-- Opens the gate that the function of an action waits at. -/
def release (b : SchedulerBench) (id : ActionId) : SchedulerBench × Bool :=
  let isMeant (turn : Turn) : Bool :=
    match turn.script with
    | .function f => f.action = id && isWaiting turn
    | .callback _ => false
  match b.turns.find? isMeant with
  | none => (b, false)
  | some turn => ((b.setTurn (openGate turn)).settle, true)

def releaseAll (b : SchedulerBench) : SchedulerBench × Nat :=
  let opened := { b with turns := b.turns.map fun t => if isWaiting t then openGate t else t }
  (opened.settle, b.turns.countP isWaiting)

/-! ## Looking -/

/-- The jobs that workers posted since the last look, those of several workers by action. -/
def takeWorkerJobs (b : SchedulerBench) : SchedulerBench × List Posted :=
  let jobs := b.workerJobs.reverse
  let sorted :=
    if b.isParallel then jobs.mergeSort fun x y => x.1.index ≤ y.1.index else jobs
  ({ b with workerJobs := [] }, sorted.map (·.2))

/-- The jobs that other threads posted since the last look. -/
def takeOtherJobs (b : SchedulerBench) : SchedulerBench × List Posted :=
  ({ b with otherJobs := [] }, b.otherJobs.reverse)

/-- What is noted and logged between two looks. -/
structure Look where
  functions : List FunctionNote := []
  callbacks : List CallbackNote := []
  log : List LogEntry := []

/-- The notes since the last look; those of functions of several workers by action. -/
def look (b : SchedulerBench) : SchedulerBench × Look :=
  let notes := b.functionNotes.reverse
  let functions :=
    if b.isParallel then notes.mergeSort fun x y => x.id.index ≤ y.id.index else notes
  ({ b with functionNotes := [], callbackNotes := [], log := [] },
    { functions, callbacks := b.callbackNotes.reverse, log := b.log.reverse })

end SchedulerBench

end SingleFlight.Rehearsal
