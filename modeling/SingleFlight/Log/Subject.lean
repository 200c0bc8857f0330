import SingleFlight.Action
import SingleFlight.Log.Entry

/-!
# Entries by subject

What happens to an action, what happens to a pool, an error: entries without a message, told by
their fields. The running of a flight is a span.
-/

namespace SingleFlight

/-- An entry about an action, with what happened to it. -/
def actionEntry (target : String) (id : ActionId) (event : String)
    (fields : List (String × LogValue)) : LogEntry :=
  { level := .debug, target
    fields := ("action", .shown id.text) :: ("event", .text event) :: fields }

/-- An entry about a pool, with what happened to it. -/
def poolEntry (target pool event : String) (fields : List (String × LogValue)) : LogEntry :=
  { level := .trace, target
    fields := ("pool", .shown pool) :: ("event", .text event) :: fields }

/-- An entry about an error. -/
def errorEntry (target error : String) (fields : List (String × LogValue)) : LogEntry :=
  { level := .error, target, fields := ("error", .shown error) :: fields }

/-- The span of running a flight. -/
def flightSpan (target : String) (id : ActionId) (kind : ActionKind)
    (fields : List (String × LogValue)) : LogSpan :=
  { name := "unit", level := .debug, target
    fields := ("action", .shown id.text) :: ("kind", .shown kind.text) :: fields }

end SingleFlight
