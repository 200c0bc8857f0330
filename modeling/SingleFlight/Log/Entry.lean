import SingleFlight.Text.Quoted
import SingleFlight.Text.Shape

/-!
# Log entries

An entry has a level, the part of the program it comes from, perhaps a message, and named fields.
-/

namespace SingleFlight

/-- How important an entry is. -/
inductive LogLevel
  | error
  | warn
  | info
  | debug
  | trace
deriving DecidableEq, Repr, Inhabited

namespace LogLevel

def name : LogLevel → String
  | error => "ERROR"
  | warn => "WARN"
  | info => "INFO"
  | debug => "DEBUG"
  | trace => "TRACE"

/-- The number of levels that are at least as important. -/
def rank : LogLevel → Nat
  | error => 1
  | warn => 2
  | info => 3
  | debug => 4
  | trace => 5

end LogLevel

inductive LogValue
  /-- Something with a text of its own, which is written as it is. -/
  | shown (text : String)
  /-- A text that is a value. -/
  | text (value : String)
  | number (value : Nat)
  | truth (value : Bool)
deriving DecidableEq, Repr, Inhabited

def LogValue.plain : LogValue → String
  | shown t => t
  | text t => t
  | number n => toString n
  | truth b => if b then "true" else "false"

/-- A stretch of work that entries are written in. -/
structure LogSpan where
  name : String
  level : LogLevel
  target : String
  fields : List (String × LogValue) := []
deriving DecidableEq, Repr, Inhabited

/-- One entry of the log. -/
structure LogEntry where
  level : LogLevel
  target : String
  message : Option String := none
  fields : List (String × LogValue) := []
  /-- The spans that the entry is written in, outermost first. -/
  spans : List LogSpan := []
deriving DecidableEq, Repr, Inhabited

namespace LogEntry

/-- The entry on one line without target: level, message, fields. -/
def brief (e : LogEntry) : String :=
  e.level.name ++ (match e.message with
    | some message => " " ++ message
    | none => "")
    ++ String.join (e.fields.map fun (name, value) => " " ++ name ++ "=" ++ value.plain)

end LogEntry

end SingleFlight
