import SingleFlight.Scheduler.Event
import SingleFlight.Snapshot

/-!
# The state of a scheduler

A scheduler holds at most one flight for each action. Requests are folded into the flight that is
in the air; a worker of the pool runs it and hands it back, and the owner's thread delivers the
outcome. Without a pool the calling thread does all of it at once.

Calls to the scheduler are kept as what is still to be done for them, so that the steps of several
threads can take turns at every use of shared state.
-/

namespace SingleFlight

variable [Payloads]

/-- How far a thread is in running a flight. -/
inductive RunStage
  /-- About to start an invocation. -/
  | starting
  /-- Inside of the function. -/
  | invoking (input : Payload) (token : Token)
  /-- The function ended; the outcome is about to be settled. -/
  | settling (token : Token) (outcome : Outcome)
deriving Inhabited

/-- How far a worker is with its flight. -/
inductive WorkStage
  | running (stage : RunStage)
  /-- About to complete a flight whose run broke down. -/
  | failing (message : String)
  /-- About to take the binding back. -/
  | unbinding
  /-- About to look whether the scheduler is closed. -/
  | returning
  /-- About to post the hand-back. -/
  | posting
deriving Inhabited

/-- What is still to be done for a call. -/
inductive Call
  /-- Off the owner's thread: the request is about to be posted. -/
  | posting (id : ActionId) (input : Payload)
  /-- The flight of the action is about to be looked up. -/
  | applying (id : ActionId) (input : Payload)
  /-- The input is about to be offered to the flight in the air. -/
  | offering (flight : Nat) (input : Payload)
  /-- The flight is about to be submitted to the pool. -/
  | submitting (flight : Nat)
  /-- A flight that was handed back is about to be looked at. -/
  | finishing (flight : Nat)
  /-- Without a pool: the flight is run by the caller. -/
  | running (flight : Nat) (stage : RunStage)
  /-- Without a pool: the outcome is about to be taken. -/
  | taking (flight : Nat)
  /-- The outcome is about to go to its callback. -/
  | delivering (flight : Nat) (outcome : Outcome)
  /-- Inside of a callback. -/
  | calling (flight : Nat)
  /-- The call that closes the scheduler. -/
  | closing
deriving Inhabited

/-- How far the call that closes the scheduler is. -/
inductive ClosingStage
  /-- The pool is being stopped. -/
  | stopping
  /-- The flights that the pool gave back are closed one by one. -/
  | undoing (rest : List Nat)
  /-- The flights that were in the air are closed one by one. -/
  | dropping (rest : List Nat)
deriving DecidableEq, Repr, Inhabited

/-- The closing of a scheduler. -/
structure Closing where
  /-- The flights that were in the air. -/
  flights : List Nat
  stage : ClosingStage
deriving DecidableEq, Repr, Inhabited

/-- A scheduler. -/
structure Scheduler where
  /-- Tells schedulers apart in messages. -/
  identity : String
  mode : PoolMode
  registrations : List Registration
  /-- The workers; without them every call does its work itself. -/
  pool : Option (Pool Nat WorkStage)
  /-- Every flight that was started, by number. -/
  flights : List Flight := []
  /-- The flights in the air. -/
  inFlight : List (ActionId × Nat) := []
  isClosed : Bool := false
  /-- The calls under way by thread, innermost first. -/
  calls : List (Caller × List Call) := []
  closing : Option Closing := none

namespace Scheduler

/-! ## Reading -/

def isSynchronous (s : Scheduler) : Bool := s.pool.isNone

def registration? (s : Scheduler) (id : ActionId) : Option Registration :=
  s.registrations[id.index]?

/-- The kind of a registered action. -/
def kind? (s : Scheduler) (id : ActionId) : Option ActionKind :=
  (s.registration? id).map (·.kind)

/-- The flight of an action that is in the air. -/
def flightOf? (s : Scheduler) (id : ActionId) : Option Nat :=
  (s.inFlight.find? (·.1 = id)).map (·.2)

/-- Whether the caller may look at the flights in the air. -/
def mayLook (s : Scheduler) (caller : Caller) : Bool :=
  s.isSynchronous || caller = .owner

/-- The message for a look at the flights in the air off the owner's thread. -/
def lookFault : String := "in-flight map accessed off the owner thread"

/-- The message for a backup off the owner's thread. -/
def backupFault : String := "backup() must be called on the owner thread"

/-- The number of flights in the air. -/
def flightCount (s : Scheduler) (caller : Caller) : Except String Nat :=
  if s.mayLook caller then .ok s.inFlight.length else .error lookFault

/-- Whether the action has a flight in the air. -/
def isInFlight (s : Scheduler) (caller : Caller) (id : ActionId) : Except String Bool :=
  if s.mayLook caller then .ok (s.flightOf? id).isSome else .error lookFault

/-- The pending inputs of the flights in the air, not copied yet. -/
def pending (s : Scheduler) : Snapshot Payload :=
  .ofList (s.inFlight.filterMap fun (id, n) => (s.flights[n]?).map fun f => (id, f.input))

/-- A copy of the pending inputs; the error is the message of a panic. -/
def backup (s : Scheduler) (caller : Caller) : Except String (Snapshot Payload) :=
  if s.mayLook caller then s.pending.copy else .error backupFault

/-- The number of workers that live. -/
def workerCount (s : Scheduler) : Nat :=
  match s.pool with
  | some p => p.live
  | none => 0

/-- The scheduler as text. -/
def description (s : Scheduler) : String :=
  Text.fields "Scheduler"
    [ ("id", s.identity),
      ("mode", s.mode.description),
      ("actions", toString s.registrations.length),
      ("synchronous", if s.isSynchronous then "true" else "false"),
      ("closed", if s.isClosed then "true" else "false") ]

/-! ## Calls under way -/

/-- What is still to be done for the calls of a thread, innermost first. -/
def callsOf (s : Scheduler) (caller : Caller) : List Call :=
  ((s.calls.find? (·.1 = caller)).map (·.2)).getD []

def setCalls (s : Scheduler) (caller : Caller) (calls : List Call) : Scheduler :=
  { s with calls := (caller, calls) :: s.calls.filter (·.1 ≠ caller) }

/-- The calls of a thread with one more inside of them. -/
def push (s : Scheduler) (caller : Caller) (call : Call) : Scheduler :=
  s.setCalls caller (call :: s.callsOf caller)

/-- Whether a worker is inside of the function of its flight. -/
def isInvoking (s : Scheduler) (worker : Nat) : Bool :=
  match s.pool.bind (·.phase? worker) with
  | some (.working _ (.running (.invoking _ _))) => true
  | _ => false

/-- Whether a thread is in code that is not the scheduler's and may call it. -/
def isFree (s : Scheduler) (caller : Caller) : Bool :=
  match s.callsOf caller, caller with
  | .calling _ :: _, _ => true
  | .running _ (.invoking _ _) :: _, _ => true
  | _ :: _, _ => false
  | [], .worker w => s.isInvoking w
  | [], _ => true

/-! ## Flights -/

def setFlight (s : Scheduler) (n : Nat) (f : Flight) : Scheduler :=
  { s with flights := s.flights.set n f }

/-- Closes the flight. -/
def closeFlight (s : Scheduler) (n : Nat) : Scheduler :=
  { s with flights := s.flights.modify n Flight.close }

/-- Interrupts the flights that the pool interrupts. -/
def heed (s : Scheduler) : List (PoolEvent Nat) → Scheduler
  | [] => s
  | .interrupted n :: rest => heed { s with flights := s.flights.modify n Flight.interrupt } rest
  | _ :: rest => heed s rest

/-- A step of the pool with what it means for the flights. -/
def withPool (s : Scheduler) (p : Pool Nat WorkStage) (events : List (PoolEvent Nat)) :
    Scheduler × List SchedulerEvent :=
  ({ s with pool := some p }.heed events, events.map .pool)

end Scheduler

end SingleFlight
