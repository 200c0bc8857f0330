import SingleFlight.Text.Quoted
import SingleFlight.Text.Shape

/-!
# Errors of the system

Errors of the operating system as thread creation and files report them: a kind alone, a kind with
a message of its own, or a numbered answer of the system.
-/

namespace SingleFlight

inductive IoErrorKind
  | notFound
  | permissionDenied
  | wouldBlock
  | isADirectory
  | notADirectory
  | outOfMemory
  | other
deriving DecidableEq, Repr, Inhabited

namespace IoErrorKind

def name : IoErrorKind → String
  | notFound => "NotFound"
  | permissionDenied => "PermissionDenied"
  | wouldBlock => "WouldBlock"
  | isADirectory => "IsADirectory"
  | notADirectory => "NotADirectory"
  | outOfMemory => "OutOfMemory"
  | other => "Other"

/-- The message of an error that has none of its own. -/
def message : IoErrorKind → String
  | notFound => "entity not found"
  | permissionDenied => "permission denied"
  | wouldBlock => "operation would block"
  | isADirectory => "is a directory"
  | notADirectory => "not a directory"
  | outOfMemory => "out of memory"
  | other => "other error"

end IoErrorKind

inductive IoError
  | simple (kind : IoErrorKind)
  | custom (kind : IoErrorKind) (message : String)
  /-- An answer of the system with its number. -/
  | system (kind : IoErrorKind) (message : String) (code : Nat)
deriving DecidableEq, Repr, Inhabited

namespace IoError

def kind : IoError → IoErrorKind
  | simple k => k
  | custom k _ => k
  | system k _ _ => k

def message : IoError → String
  | simple k => k.message
  | custom _ m => m
  | system _ m code => m ++ " (os error " ++ toString code ++ ")"

/-- The error as a value. -/
def description : IoError → String
  | simple k => Text.applied "Kind" k.name
  | custom k m => Text.fields "Custom" [("kind", k.name), ("error", Text.quoted m)]
  | system k m code =>
    Text.fields "Os" [("code", toString code), ("kind", k.name), ("message", Text.quoted m)]

end IoError

end SingleFlight
