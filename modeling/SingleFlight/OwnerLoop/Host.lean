import SingleFlight.Text.Quoted
import SingleFlight.Text.Shape

/-!
# Runtimes of the host

A runtime of the host can stand in for the owner's loop if it runs all jobs on one thread. Unlike
the loop it swallows the panics of its jobs.
-/

namespace SingleFlight

/-- Why a runtime cannot stand in. -/
inductive RuntimeError
  | noRuntime
  | unsupported (flavor : String)
deriving DecidableEq, Repr, Inhabited

namespace RuntimeError

def message : RuntimeError → String
  | noRuntime => "No tokio runtime is running on this thread"
  | unsupported flavor => "Owner executor needs a current-thread runtime, found " ++ flavor

/-- The error as a value. -/
def description : RuntimeError → String
  | noRuntime => "NoRuntime"
  | unsupported flavor => Text.applied "UnsupportedFlavor" (Text.quoted flavor)

/-- The name of the kind of error. -/
def kind : RuntimeError → String
  | noRuntime => "NoRuntime"
  | unsupported _ => "UnsupportedFlavor"

end RuntimeError

/-- The runtimes of a host. -/
inductive HostRuntime
  | none
  | severalThreads
  | oneThread
deriving DecidableEq, Repr, Inhabited

namespace HostRuntime

/-- Whether the runtime can stand in. -/
def attach : HostRuntime → Except RuntimeError Unit
  | none => .error .noRuntime
  | severalThreads => .error (.unsupported "MultiThread")
  | oneThread => .ok ()

end HostRuntime

end SingleFlight
