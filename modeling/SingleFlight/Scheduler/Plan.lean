import SingleFlight.Log.Entry
import SingleFlight.OwnerLoop
import SingleFlight.Scheduler.State

/-!
# Plans of schedulers

A plan collects what a scheduler is built from: the registered actions, who runs the owner's jobs,
the size of the pool, and the inputs to be requested at the start. Saved inputs take the place of
the initial ones.
-/

namespace SingleFlight

/-- Who runs the jobs of the owner's thread. -/
inductive OwnerExecutor
  | loop
  /-- A runtime of the host. -/
  | runtime
deriving DecidableEq, Repr, Inhabited

variable [Payloads]

/-- What a scheduler is built from. -/
structure Plan where
  mode : PoolMode := .serial
  registrations : List Registration := []
  /-- Without an executor the scheduler has no pool. -/
  executor : Option OwnerExecutor := none
  /-- Settings in place of those of the mode. -/
  settings : Option PoolSettings := none
  /-- The first part of the workers' names in place of that of the settings. -/
  namePrefix : Option String := none
  /-- Saved inputs. -/
  restored : Option (Snapshot Payload) := none
  /-- The inputs of a first start. -/
  initial : Snapshot Payload := .empty

/-- What became of a plan. -/
inductive Opening
  | opened (s : Scheduler)
  | rejected (error : PoolError)
  | panicked (message : String)

namespace Plan

/-- The id of the next action. -/
def nextId (p : Plan) : ActionId := ⟨p.registrations.length⟩

/-- The plan with one more action. -/
def register (p : Plan) (kind : ActionKind) (input : PayloadType) (hasSink : Bool) : Plan :=
  { p with registrations := p.registrations ++ [{ id := p.nextId, kind, input, hasSink }] }

/-- Whether no saved inputs are given. -/
def isInitial (p : Plan) : Bool := p.restored.isNone

/-- The inputs to be requested at the start, ascending by action. -/
def requests (p : Plan) : List (ActionId × Payload) := (p.restored.getD p.initial).toList

/-- The settings of the pool on a machine with a number of processors. -/
def poolSettings (p : Plan) (processors : Nat) : Except String PoolSettings :=
  let chosen : Except String PoolSettings :=
    match p.settings with
    | some settings => .ok settings
    | none => PoolSettings.forMode p.mode processors
  chosen.map fun settings =>
    { settings with namePrefix := p.namePrefix.getD settings.namePrefix }

/-- Whether the settings allow for several workers. -/
def isParallel (p : Plan) (processors : Nat) : Bool :=
  match p.poolSettings processors with
  | .ok settings => 1 < settings.max || 1 < settings.core
  | .error _ => true

/-- The scheduler before the first request; `tag` ends the name of its pool. -/
def opening (p : Plan) (identity tag : String) (processors : Nat) : Opening :=
  let scheduler (pool : Option (Pool Nat WorkStage)) : Scheduler :=
    { identity, mode := p.mode, registrations := p.registrations, pool }
  if p.executor.isNone then .opened (scheduler none)
  else
    match p.poolSettings processors with
    | .error message => .panicked message
    | .ok settings =>
      match settings.validate with
      | .error error => .rejected error
      | .ok () =>
        .opened (scheduler (some (.create (settings.namePrefix ++ "-" ++ tag) settings)))

/-- The plan as text. -/
def description (p : Plan) (l : OwnerLoop α) : String :=
  let executor : OwnerExecutor → String
    | .loop => l.handleDescription
    | .runtime => "Tokio"
  Text.fields "SchedulerBuilder"
    [ ("mode", p.mode.description),
      ("records", Text.listed (p.registrations.map Registration.description)),
      ("executor", Text.optional executor p.executor),
      ("pool_config", Text.optional PoolSettings.description p.settings),
      ("restored", Text.optional Snapshot.description p.restored),
      ("initial", p.initial.description) ]

/-! ## Log entries -/

def target : String := "courier::scheduler::builder"

/-- The entry for a registered action. -/
def registeredEntry (r : Registration) : LogEntry :=
  { level := .trace, target, message := some "Action registered"
    fields := [("action", .shown r.id.text), ("kind", .shown r.kind.text)] }

/-- The entry for the scheduler that was built. -/
def openedEntry (p : Plan) (s : Scheduler) : LogEntry :=
  { level := .info, target, message := some "Scheduler opened"
    fields := [("scheduler", .shown s.identity), ("mode", .shown s.mode.description),
      ("actions", .number s.registrations.length), ("synchronous", .truth s.isSynchronous),
      ("restored", .truth (!p.isInitial))] }

end Plan

end SingleFlight
