import SingleFlight.IoError
import SingleFlight.Log.Entry
import SingleFlight.Registration
import SingleFlight.Rehearsal.RegistrationBench
import SingleFlight.Rehearsal.Values

/-!
# Words of scripts

The words that scripts of rehearsals use for kinds and types.
-/

namespace SingleFlight.Rehearsal.Words

/-- The type that the word names. -/
def payloadType? : String → Option PayloadType
  | "unit" => some .unit
  | "bool" => some .bool
  | "u8" => some .u8
  | "i32" => some .i32
  | "u32" => some .u32
  | "i64" => some .i64
  | "u64" => some .u64
  | "f64" => some .f64
  | "char" => some .char
  | "string" => some .string
  | "str" => some .str
  | "vec_i32" => some .i32List
  | "vec_string" => some .stringList
  | "pair" => some .pair
  | "opt_i32" => some .optionalI32
  | "fragile" => some .fragile
  | _ => none

def actionKind? : String → Option ActionKind
  | "get" => some .get
  | "set" => some .set
  | "void" => some .void
  | _ => none

def cancelled? : String → Option Cancelled
  | "superseded" => some .superseded
  | "interrupted" => some .interrupted
  | _ => none

def tokenKind? : String → Option TokenKind
  | "live" => some .live
  | "superseded" => some .superseded
  | "interrupted" => some .interrupted
  | "never" => some .never
  | _ => none

def ioErrorKind? : String → Option IoErrorKind
  | "other" => some .other
  | "not_found" => some .notFound
  | "permission_denied" => some .permissionDenied
  | "would_block" => some .wouldBlock
  | "out_of_memory" => some .outOfMemory
  | _ => none

def logLevel? : String → Option LogLevel
  | "error" => some .error
  | "warn" => some .warn
  | "info" => some .info
  | "debug" => some .debug
  | "trace" => some .trace
  | _ => none

def failureKind : Failure → String
  | .cancelled _ => "cancelled"
  | .panicked _ => "panicked"
  | .failed _ => "failed"

/-- The word for how two numbers compare. -/
def order (a b : Nat) : String :=
  match compare a b with
  | .lt => "Less"
  | .eq => "Equal"
  | .gt => "Greater"

end SingleFlight.Rehearsal.Words
