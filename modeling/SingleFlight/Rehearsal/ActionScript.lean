import SingleFlight.Rehearsal.FlightBench
import SingleFlight.Snapshot

/-!
# Scripted actions

What the function of a scripted action does before it ends, what its callback does with a
delivery, and the notes that both leave.
-/

namespace SingleFlight.Rehearsal

/-- What a scripted function does. -/
inductive BodyItem
  /-- Returns early if the token is cancelled. -/
  | check
  /-- Waits for its release; on a thread that is no worker there is nothing to wait for. -/
  | gate
  /-- Waits for its release or its cancellation, then checks the token. -/
  | checkedGate
  | close
  /-- Requests an action, during the first `limit` calls of the function only. -/
  | apply (id : ActionId) (input : Payload) (limit : Nat)

/-- What a scripted callback does. -/
inductive CallbackItem
  | apply (id : ActionId) (input : Payload)
  | close
  | panic (message : String)
  /-- Notes what the scheduler tells. -/
  | probe

/-- The script of an action. -/
structure ActionScript where
  body : List BodyItem := []
  reply : ReplyPlan := .echo
  /-- Whether the notes show the thread. -/
  showsThread : Bool := false
  /-- What the callback does with each of the first deliveries. -/
  callback : List CallbackItem := []
  /-- How many deliveries are the first ones. -/
  times : Nat := 1

inductive FunctionEnd
  | ok
  | failed (message : String)
  | panicked

def FunctionEnd.word : FunctionEnd → String
  | ok => "ok"
  | failed _ => "err"
  | panicked => "panic"

inductive FunctionNote
  | started (id : ActionId) (text : String) (generation : UInt64) (thread : Option String)
  | ended (id : ActionId) (how : FunctionEnd) (state : String)

def FunctionNote.id : FunctionNote → ActionId
  | started id _ _ _ => id
  | ended id _ _ => id

/-- What a scheduler tells its callback. -/
structure Probe where
  flights : Nat
  isInFlight : Bool
  saved : Snapshot Payload
  isClosed : Bool
  isOwner : Bool

inductive CallbackNote
  | result (id : ActionId) (outcome : Outcome)
  | failure (id : ActionId) (failure : Failure)
  | probed (id : ActionId) (probe : Probe)

end SingleFlight.Rehearsal
