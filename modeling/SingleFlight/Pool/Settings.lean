import SingleFlight.Duration
import SingleFlight.IoError

/-!
# Pool settings

Size and times of a worker pool, the settings for a machine with a number of processors, and which
settings a pool cannot honour.
-/

namespace SingleFlight

/-- Whether one worker runs the actions or several do. -/
inductive PoolMode
  | serial
  | parallel
deriving DecidableEq, Repr, Inhabited

def PoolMode.description : PoolMode → String
  | serial => "Serial"
  | parallel => "Parallel"

/-- Why settings are rejected. -/
inductive SettingsFault
  | noWorkers
  | coreAboveMax (core max : Nat)
  | noQueue
  /-- Idle workers would leave at once and be started again for ever. -/
  | noKeepAlive
deriving DecidableEq, Repr, Inhabited

def SettingsFault.message : SettingsFault → String
  | noWorkers => "max_threads must be at least 1"
  | coreAboveMax core max =>
    "core_threads (" ++ toString core ++ ") exceeds max_threads (" ++ toString max ++ ")"
  | noQueue => "queue_capacity must be at least 1"
  | noKeepAlive => "keep_alive must be non-zero when workers can time out"

/-- Why a pool does not take a task or cannot be built. -/
inductive PoolError
  | queueFull (capacity : Nat)
  | stopped
  | spawn (error : IoError)
  | invalidConfig (message : String)
deriving DecidableEq, Repr, Inhabited

namespace PoolError

def message : PoolError → String
  | queueFull capacity => "Pool queue is full (capacity: " ++ toString capacity ++ ")"
  | stopped => "Pool is stopped"
  | spawn error => "Failed to spawn worker thread: " ++ error.message
  | invalidConfig m => "Invalid configuration: " ++ m

/-- The error as a value. -/
def description : PoolError → String
  | queueFull capacity => Text.fields "QueueFull" [("capacity", toString capacity)]
  | stopped => "Stopped"
  | spawn error => Text.applied "Spawn" error.description
  | invalidConfig m => Text.applied "InvalidConfig" (Text.quoted m)

/-- The messages of what caused the error. -/
def sources : PoolError → List String
  | spawn error => [error.message]
  | _ => []

/-- The name of the kind of error. -/
def kind : PoolError → String
  | queueFull _ => "QueueFull"
  | stopped => "Stopped"
  | spawn _ => "Spawn"
  | invalidConfig _ => "InvalidConfig"

end PoolError

/-- Size and times of a worker pool. -/
structure PoolSettings where
  /-- Submissions start workers up to this number before tasks are queued. -/
  core : Nat
  /-- No more workers than this live at once. -/
  max : Nat
  /-- How many tasks wait in the queue at most. -/
  capacity : Nat
  /-- How long an idle worker waits before it leaves. -/
  keepAlive : Duration
  /-- Whether core workers leave as well. -/
  coreTimeout : Bool
  /-- How long a stop waits for running workers. -/
  stopTimeout : Duration
  /-- The first part of the workers' names. -/
  namePrefix : String
deriving DecidableEq, Repr, Inhabited

namespace PoolSettings

def defaultCapacity : Nat := 128

def defaultKeepAlive : Duration := .seconds 30

def defaultStopTimeout : Duration := .seconds 1

def defaultPrefix : String := "courier"

/-- One worker that never leaves. -/
def serial : PoolSettings :=
  { core := 1
    max := 1
    capacity := defaultCapacity
    keepAlive := defaultKeepAlive
    coreTimeout := false
    stopTimeout := defaultStopTimeout
    namePrefix := defaultPrefix }

/-- Sizes are numbers of 64 bits. -/
def sizeLimit : Nat := UInt64.size

/-- Settings for a number of processors; the error is the message of the overflow of the size. -/
def forProcessors (count : Nat) : Except String PoolSettings :=
  let count := Nat.max count 1
  if sizeLimit ≤ count * 2 then .error "attempt to multiply with overflow"
  else if sizeLimit ≤ count * 2 + 1 then .error "attempt to add with overflow"
  else
    .ok { core := Nat.min (Nat.max (count - 1) 2) 4
          max := count * 2 + 1
          capacity := defaultCapacity
          keepAlive := defaultKeepAlive
          coreTimeout := true
          stopTimeout := defaultStopTimeout
          namePrefix := defaultPrefix }

/-- Settings of the mode on a machine with a number of processors. -/
def forMode (mode : PoolMode) (processors : Nat) : Except String PoolSettings :=
  match mode with
  | .serial => .ok serial
  | .parallel => forProcessors processors

/-- Whether some worker waits for a limited time only. -/
def canTimeOut (s : PoolSettings) : Bool := s.coreTimeout || s.core < s.max

/-- The first fault of the settings. -/
def fault? (s : PoolSettings) : Option SettingsFault :=
  if s.max = 0 then some .noWorkers
  else if s.max < s.core then some (.coreAboveMax s.core s.max)
  else if s.capacity = 0 then some .noQueue
  else if s.keepAlive.isZero && s.canTimeOut then some .noKeepAlive
  else none

def validate (s : PoolSettings) : Except PoolError Unit :=
  match s.fault? with
  | some fault => .error (.invalidConfig fault.message)
  | none => .ok ()

/-- The settings as text. -/
def description (s : PoolSettings) : String :=
  Text.fields "PoolConfig"
    [ ("core_threads", toString s.core),
      ("max_threads", toString s.max),
      ("queue_capacity", toString s.capacity),
      ("keep_alive", s.keepAlive.text),
      ("allow_core_timeout", if s.coreTimeout then "true" else "false"),
      ("stop_timeout", s.stopTimeout.text),
      ("thread_name_prefix", Text.quoted s.namePrefix) ]

end PoolSettings

end SingleFlight
