import SingleFlight.Flight.Run
import SingleFlight.Rehearsal.ReplyPlan

/-!
# A flight on the bench

One flight driven from one thread, with a scripted function that acts on the flight while it runs
and records what it sees.
-/

namespace SingleFlight.Rehearsal

/-- What a token tells, in one word. -/
def tokenState (t : Token) (s : Signal) : String :=
  match t.check s with
  | none => "live"
  | some .superseded => "superseded"
  | some .interrupted => "interrupted"

/-- What a scripted function does while it runs. -/
inductive FlightItem
  | offer (input : Payload)
  | interrupt
  | close
  /-- Records what the token tells. -/
  | token
  /-- Returns early if the token is cancelled. -/
  | check
  | take
  /-- Records the flight as text. -/
  | describe
  | fail (message : String)
  | bind (worker : String)
  | unbind (worker : String)

/-- One call of a scripted function. -/
structure FlightScript where
  during : List FlightItem := []
  reply : ReplyPlan := .echo

inductive FlightNote
  | call (text : String) (generation : UInt64) (state : String)
  | offered (offer : Offer)
  | token (state : String) (cancelled : Bool)
  | took (outcome : Option Outcome)
  | described (text : String)
  | ended (state : String)
  | result (outcome : Outcome)
  | failure (failure : Failure)

/-- What the callbacks record of a delivery. -/
def deliveryNotes (delivery : Delivery) : List FlightNote :=
  delivery.calls.map fun
    | .result outcome => .result outcome
    | .sink failure => .failure failure

/-- The bench between two calls: how many calls there were, and what was recorded. -/
structure FlightLog where
  calls : Nat := 0
  /-- Newest first. -/
  notes : List FlightNote := []

namespace FlightLog

def add (l : FlightLog) (note : FlightNote) : FlightLog := { l with notes := note :: l.notes }

end FlightLog

/-- Why a scripted function stopped before its end. -/
inductive EarlyEnd
  | cancelled (reason : Cancelled)
  | panicked (message : String)

/-- Does what the script says, one item after the other. -/
def perform (token : Token) : List FlightItem → FlightLog → Flight →
    (FlightLog × Flight) × Option EarlyEnd
  | [], log, f => ((log, f), none)
  | item :: rest, log, f =>
    match item with
    | .offer input =>
      match f.offer input with
      | .error message => ((log, f), some (.panicked message))
      | .ok (f, offer) => perform token rest (log.add (.offered offer)) f
    | .interrupt => perform token rest log f.interrupt
    | .close => perform token rest log f.close
    | .token =>
      perform token rest
        (log.add (.token (tokenState token f.signal) (token.isCancelled f.signal))) f
    | .check =>
      match token.check f.signal with
      | some reason => ((log, f), some (.cancelled reason))
      | none => perform token rest log f
    | .take =>
      let (f, outcome) := f.take
      perform token rest (log.add (.took outcome)) f
    | .describe => perform token rest (log.add (.described f.description)) f
    | .fail message => perform token rest log (f.fail message)
    | .bind worker => perform token rest log (f.bind worker)
    | .unbind worker => perform token rest log (f.unbind worker)

/-- The scripted function of the registration: the `n`-th script belongs to the `n`-th call. -/
def scripted (r : Registration) (scripts : List FlightScript) : Flight.Invocation FlightLog :=
  fun log f input token =>
    match r.callInput input with
    | .error failure => ((log, f), .ok (.error failure))
    | .ok input =>
      let n := log.calls + 1
      let script := (scripts[log.calls]?).getD {}
      let text := input.description
      let called := { log with calls := n }.add
        (.call text token.started (tokenState token f.signal))
      match perform token script.during called f with
      | (state, some (.cancelled reason)) =>
        (state, r.outcome (.failed (.ofCancelled reason)))
      | (state, some (.panicked message)) => (state, .error message)
      | ((log, f), none) =>
        match r.outcome (script.reply.reply text n) with
        | .error message => ((log, f), .error message)
        | .ok outcome => ((log.add (.ended (tokenState token f.signal)), f), .ok outcome)

/-- A flight with its registration and the scripts of its function. -/
structure FlightBench where
  registration : Registration
  scripts : List FlightScript
  flight : Flight
  log : FlightLog := {}

inductive FlightStep
  | run
  | offer (input : Payload)
  | fail (message : String)
  | bind (worker : String)
  | unbind (worker : String)
  | take
  | deliver
  | interrupt
  | close
  | pending
  | info

inductive FlightAnswer
  | done
  | offered (offer : Offer)
  | took (outcome : Option Outcome)
  /-- Whether there was an outcome to deliver. -/
  | delivered (any : Bool)
  | pending (input : Payload)
  | info (id : ActionId) (kind : ActionKind) (generation : UInt64) (attempts : Nat)
  | panicked (message : String)

namespace FlightBench

/-- Every call beyond the scripts ends its run, so this many suffice for one run. -/
def fuel (b : FlightBench) : Nat := b.scripts.length + 2

def step (b : FlightBench) : FlightStep → FlightBench × FlightAnswer
  | .run =>
    let ((log, flight), ended) :=
      b.flight.run (scripted b.registration b.scripts) b.fuel b.log
    let b := { b with log, flight }
    match ended with
    | .panicked message => (b, .panicked message)
    | _ => (b, .done)
  | .offer input =>
    match b.flight.offer input with
    | .error message => (b, .panicked message)
    | .ok (flight, offer) => ({ b with flight }, .offered offer)
  | .fail message => ({ b with flight := b.flight.fail message }, .done)
  | .bind worker => ({ b with flight := b.flight.bind worker }, .done)
  | .unbind worker => ({ b with flight := b.flight.unbind worker }, .done)
  | .take =>
    let (flight, outcome) := b.flight.take
    ({ b with flight }, .took outcome)
  | .deliver =>
    match b.flight.take with
    | (flight, none) => ({ b with flight }, .delivered false)
    | (flight, some outcome) =>
      let log := (deliveryNotes (b.registration.deliver outcome)).foldl FlightLog.add b.log
      ({ b with flight, log }, .delivered true)
  | .interrupt => ({ b with flight := b.flight.interrupt }, .done)
  | .close => ({ b with flight := b.flight.close }, .done)
  | .pending =>
    match b.flight.input.copy with
    | .error message => (b, .panicked message)
    | .ok input => (b, .pending input)
  | .info =>
    let f := b.flight
    (b, .info f.action f.kind f.signal.generation f.attempts)

/-- The notes since the last look, oldest first. -/
def collect (b : FlightBench) : FlightBench × List FlightNote :=
  ({ b with log := { b.log with notes := [] } }, b.log.notes.reverse)

end FlightBench

end SingleFlight.Rehearsal
