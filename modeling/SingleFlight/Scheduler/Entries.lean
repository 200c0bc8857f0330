import SingleFlight.Log.Subject
import SingleFlight.Pool.Events
import SingleFlight.Scheduler.State

/-!
# What a scheduler logs

The life of flights is logged for debugging, opening and closing for information, and a failure
that nobody waits for as a warning.
-/

namespace SingleFlight

def schedulerTarget : String := "courier::scheduler"

def hookTarget : String := "courier::scheduler::hooks"

def flightTarget : String := "courier::unit"

def registrationTarget : String := "courier::record"

/-- The entry for a failure without a sink. -/
def unreportedEntry (id : ActionId) (kind : ActionKind) (failure : Failure) : LogEntry :=
  { level := .warn, target := registrationTarget
    message := some "Action failed with no error sink"
    fields := [("action", .shown id.text), ("kind", .shown kind.text),
      ("error", .shown failure.message)] }

/-- Where requests and hand-backs of an action are logged to be dropped. -/
def DropReason.entry (reason : DropReason) (target : String) (id : ActionId) : LogEntry :=
  actionEntry target id "dropped" [("reason", .text reason.text)]

variable [Payloads]

namespace Scheduler

/-- The entry of a flight that is being run. -/
def runEntry (s : Scheduler) (id : ActionId) (event : String)
    (fields : List (String × LogValue)) : LogEntry :=
  { actionEntry flightTarget id event fields with
    spans := (s.kind? id).toList.map fun kind => flightSpan flightTarget id kind [] }

/-- The entry that an event leaves in the log of a thread. -/
def entry? (s : Scheduler) (caller : Caller) : SchedulerEvent → Option LogEntry
  | .dropped id reason =>
    some (reason.entry (if caller.isWorker then hookTarget else schedulerTarget) id)
  | .queued _ id kind _ =>
    some (actionEntry schedulerTarget id "queued" [("kind", .shown kind.text)])
  | .coalesced _ id => some (actionEntry schedulerTarget id "coalesced" [])
  | .superseded _ id _ generation =>
    some (actionEntry schedulerTarget id "superseded" [("generation", .number generation.toNat)])
  | .rearmed _ id _ generation =>
    some (actionEntry schedulerTarget id "rearmed" [("generation", .number generation.toNat)])
  | .bound _ id worker => some (actionEntry hookTarget id "running" [("worker", .text worker)])
  | .retried _ id generation attempts =>
    some (s.runEntry id "superseded"
      [("generation", .number generation.toNat), ("attempts", .number attempts)])
  | .completed _ id generation success =>
    some (s.runEntry id "completed"
      [("generation", .number generation.toNat), ("ok", .truth success)])
  | .stale _ id => some (actionEntry schedulerTarget id "stale hand-back ignored" [])
  | .awaiting _ id => some (actionEntry schedulerTarget id "awaiting rerun" [])
  | .delivered _ id attempts =>
    some (actionEntry schedulerTarget id "delivered" [("attempts", .number attempts)])
  | .notified _ _ id kind (.unreported failure) => some (unreportedEntry id kind failure)
  | .poolStopped undone terminated =>
    some { level := .debug, target := schedulerTarget, message := some "Pool stopped"
           fields := [("scheduler", .shown s.identity), ("undone", .number undone),
             ("terminated", .truth terminated)] }
  | .closed flights =>
    some { level := .info, target := schedulerTarget, message := some "Scheduler closed"
           fields := [("scheduler", .shown s.identity), ("dropped", .number flights)] }
  | .pool event => s.pool.bind fun p => p.entry? event
  | _ => none

end Scheduler

end SingleFlight
