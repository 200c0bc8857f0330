import SingleFlight.Registration

/-!
# Flights

A flight carries the newest input requested for an action to its function and the outcome back. A
newer input is folded into the flight instead of starting another one; it makes the token of a
running invocation stale, and the flight invokes the function again.

Each operation here is one step on the flight as a whole: nothing else happens to the flight
between its start and its end, and the function itself runs outside of all of them.
-/

namespace SingleFlight

/-- Where a flight is in its life. -/
inductive FlightPhase
  /-- Not yet picked up by a worker. -/
  | queued
  /-- A worker is invoking the function. -/
  | running
  /-- The outcome is stored and waits for its delivery. -/
  | completed
  /-- Delivered or given up; the function never runs again. -/
  | closed
deriving DecidableEq, Repr, Inhabited

def FlightPhase.description : FlightPhase → String
  | queued => "Queued"
  | running => "Running"
  | completed => "Completed"
  | closed => "Closed"

/-- What became of a newer input. -/
inductive Offer
  /-- It equals the pending one. -/
  | unchanged
  /-- It replaced the pending one. -/
  | superseded
  /-- It replaced the input of a completed flight, which has to be queued again. -/
  | rearmed
  /-- The flight is closed. -/
  | rejected
deriving DecidableEq, Repr, Inhabited

def Offer.description : Offer → String
  | unchanged => "Unchanged"
  | superseded => "Superseded"
  | rearmed => "Rearmed"
  | rejected => "Rejected"

variable [Payloads]

/-- One request for an action on its way from the first input to the delivery. -/
structure Flight where
  action : ActionId
  kind : ActionKind
  /-- The newest input. -/
  input : Payload
  phase : FlightPhase := .queued
  output : Option Outcome := none
  signal : Signal := {}
  /-- The name of the worker that is bound to the flight. -/
  worker : Option String := none
  /-- How many invocations were started. -/
  attempts : Nat := 0
deriving Inhabited

/-- How the attempt to start an invocation ended. -/
inductive Start
  /-- The flight is closed. -/
  | refused
  /-- The input could not be copied; the attempt counts and the flight stays running. -/
  | panicked (message : String)
  /-- The function is to be called with this input. -/
  | invoke (input : Payload) (token : Token)
deriving Inhabited

/-- What became of the outcome of an invocation. -/
inductive Settlement
  /-- The flight was closed meanwhile; the outcome is lost. -/
  | dropped
  /-- A newer input arrived meanwhile; the function is invoked again. -/
  | again
  /-- The outcome is stored. -/
  | stored
deriving DecidableEq, Repr, Inhabited

namespace Flight

/-- A new flight of the action. -/
def of (r : Registration) (input : Payload) : Flight :=
  { action := r.id, kind := r.kind, input }

/-- One more than the number of attempts that can be counted. -/
def attemptLimit : Nat := UInt32.size

/-- The message for an attempt beyond the limit. -/
def attemptOverflow : String := "attempt to add with overflow"

/-- Folds a newer input into the flight; the error is the message of a comparison that panicked. -/
def offer (f : Flight) (input : Payload) : Except String (Flight × Offer) :=
  if f.phase = .closed then .ok (f, .rejected)
  else
    match f.input.compare input with
    | .error message => .error message
    | .ok true => .ok (f, .unchanged)
    | .ok false =>
      let replaced := { f with input, signal := f.signal.bump }
      if f.phase = .completed then
        .ok ({ replaced with output := none, phase := .queued }, .rearmed)
      else .ok (replaced, .superseded)

/-- Starts an invocation with a copy of the newest input. -/
def start (f : Flight) : Flight × Start :=
  if f.phase = .closed then (f, .refused)
  else if attemptLimit ≤ f.attempts + 1 then
    ({ f with phase := .running }, .panicked attemptOverflow)
  else
    let running := { f with phase := .running, attempts := f.attempts + 1 }
    match f.input.copy with
    | .error message => (running, .panicked message)
    | .ok input => (running, .invoke input ⟨f.signal.generation⟩)

/-- Ends an invocation that was started with the given token: its outcome is stored unless a newer
input arrived, which an interrupted flight ignores. -/
def settle (f : Flight) (token : Token) (outcome : Outcome) : Flight × Settlement :=
  if f.phase = .closed then (f, .dropped)
  else if !f.signal.interrupted && token.isSuperseded f.signal then (f, .again)
  else ({ f with output := some outcome, phase := .completed }, .stored)

/-- Completes a flight whose run broke down outside of the function. -/
def fail (f : Flight) (message : String) : Flight :=
  if f.phase = .queued || f.phase = .running then
    { f with output := some (.error (.panicked message)), phase := .completed }
  else f

/-- Binds a worker to the flight. -/
def bind (f : Flight) (worker : String) : Flight := { f with worker := some worker }

/-- Takes the binding back if it is the worker's own and the flight has come to its end. -/
def unbind (f : Flight) (worker : String) : Flight :=
  if f.worker = some worker && (f.phase = .completed || f.phase = .closed) then
    { f with worker := none }
  else f

/-- Takes the outcome of a completed flight and closes it. -/
def take (f : Flight) : Flight × Option Outcome :=
  if f.phase = .completed then ({ f with phase := .closed, output := none }, f.output)
  else (f, none)

/-- Asks a running invocation to stop. -/
def interrupt (f : Flight) : Flight := { f with signal := f.signal.interrupt }

/-- Gives the flight up without a delivery. -/
def close (f : Flight) : Flight :=
  { f with signal := f.signal.interrupt, phase := .closed, output := none }

/-- The flight as text. -/
def description (f : Flight) : String :=
  Text.fields "WorkUnit"
    [ ("id", f.action.description),
      ("kind", f.kind.description),
      ("phase", f.phase.description),
      ("input", f.input.description),
      ("generation", toString f.signal.generation.toNat),
      ("worker", Text.optional Text.quoted f.worker),
      ("attempts", toString f.attempts) ]

end Flight

end SingleFlight
