import SingleFlight.Log.Entry
import SingleFlight.Pool

/-!
# What a pool logs

Panics of tasks and of hooks are logged as errors, a stop that ran out of time for debugging.
-/

namespace SingleFlight

/-- The part of the program that workers log for. -/
def workerTarget : String := "courier::pool::worker"

/-- The part of the program that pools log for. -/
def poolTarget : String := "courier::pool"

/-- The entry for a panic on a worker. -/
def panicEntry (worker what message : String) : LogEntry :=
  { level := .error, target := workerTarget, message := some what
    fields := [("error", .shown message), ("worker", .shown worker)] }

/-- The entry that an event of the pool leaves in the log. -/
def Pool.entry? (p : Pool τ σ) : PoolEvent τ → Option LogEntry
  | .panicked worker _ message => some (panicEntry (p.workerName worker) "Task panicked" message)
  | .hookPanicked worker message =>
    some (panicEntry (p.workerName worker) "after_run hook panicked" message)
  | .stopped _ false =>
    some { level := .debug, target := poolTarget
           message := some "Workers still running after stop timeout"
           fields := [("pool", .shown p.name)] }
  | _ => none

end SingleFlight
