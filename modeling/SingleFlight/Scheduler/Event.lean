import SingleFlight.Flight
import SingleFlight.Pool

/-!
# What happens in a scheduler

The threads that call a scheduler, the jobs it posts for its owner, and the events of its steps.
Flights go by the number of their creation.
-/

namespace SingleFlight

/-- A thread that calls a scheduler. -/
inductive Caller
  /-- The thread that built it. -/
  | owner
  /-- A worker of its pool. -/
  | worker (number : Nat)
  | other (number : Nat)
deriving DecidableEq, Repr, Inhabited

/-- Whether a thread is one of the workers. -/
def Caller.isWorker : Caller → Bool
  | worker _ => true
  | _ => false

variable [Payloads]

/-- A job for the owner's thread. -/
inductive Posted
  /-- A request that was made on another thread. -/
  | request (id : ActionId) (input : Payload)
  /-- A flight that its worker is done with. -/
  | handBack (flight : Nat)
deriving DecidableEq, Inhabited

/-- Why a request or an outcome is given up. -/
inductive DropReason
  | schedulerClosed
  | poolStopped
  | flightClosed
deriving DecidableEq, Repr, Inhabited

def DropReason.text : DropReason → String
  | schedulerClosed => "scheduler closed"
  | poolStopped => "pool stopped"
  | flightClosed => "unit closed"

/-- One event. -/
inductive SchedulerEvent
  /-- A call to the scheduler returned. -/
  | returned (caller : Caller)
  /-- A call to the scheduler panicked. -/
  | panicked (caller : Caller) (message : String)
  /-- A request of another thread was accepted and is on its way to the owner. -/
  | posted (caller : Caller) (job : Posted)
  | dropped (id : ActionId) (reason : DropReason)
  /-- A request started a flight. -/
  | queued (flight : Nat) (id : ActionId) (kind : ActionKind) (input : Payload)
  /-- A request equal to the pending one was ignored. -/
  | coalesced (flight : Nat) (id : ActionId)
  | superseded (flight : Nat) (id : ActionId) (input : Payload) (generation : UInt64)
  | rearmed (flight : Nat) (id : ActionId) (input : Payload) (generation : UInt64)
  /-- A worker is bound to a flight and about to run it. -/
  | bound (flight : Nat) (id : ActionId) (worker : String)
  /-- The function is called. -/
  | called (caller : Caller) (flight : Nat) (id : ActionId) (input : Payload) (token : Token)
  /-- An invocation with a stale input ended; another one follows. -/
  | retried (flight : Nat) (id : ActionId) (generation : UInt64) (attempts : Nat)
  /-- The outcome of an invocation is stored. -/
  | completed (flight : Nat) (id : ActionId) (generation : UInt64) (success : Bool)
  /-- A hand-back of a flight that is no longer the one of its action. -/
  | stale (flight : Nat) (id : ActionId)
  /-- A hand-back of a flight that runs again. -/
  | awaiting (flight : Nat) (id : ActionId)
  /-- The outcome is taken for its delivery. -/
  | delivered (flight : Nat) (id : ActionId) (attempts : Nat)
  /-- The outcome goes to its callback, if there is one. -/
  | notified (caller : Caller) (flight : Nat) (id : ActionId) (kind : ActionKind)
      (delivery : Delivery)
  /-- The pool was stopped for the close. -/
  | poolStopped (undone : Nat) (terminated : Bool)
  /-- The scheduler is closed; so many flights were in the air. -/
  | closed (flights : Nat)
  | pool (event : PoolEvent Nat)

end SingleFlight
