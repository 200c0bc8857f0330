import SingleFlight.Flight

/-!
# Running a flight to its end

The whole run of a flight by one caller: invocations are started and settled until an outcome is
stored, the flight is closed or its input cannot be copied.
-/

namespace SingleFlight.Flight

variable [Payloads]

/-- A function as its flight sees it: called in a state with an input and a token, it may act on
the state and on the flight before it ends. The error is the message of a panic. -/
abbrev Invocation (σ : Type) := σ → Flight → Payload → Token → (σ × Flight) × Except String Outcome

/-- How a run ended. -/
inductive RunEnd
  /-- The flight was closed before an invocation started. -/
  | refused
  /-- The flight was closed during the last invocation. -/
  | dropped
  /-- The outcome of the last invocation is stored. -/
  | stored
  /-- The input could not be copied. -/
  | panicked (message : String)
  /-- The allowed number of invocations was used up. -/
  | unfinished
deriving DecidableEq, Repr, Inhabited

/-- A panic of the function is an outcome of its invocation. -/
def caught : Except String Outcome → Outcome
  | .ok outcome => outcome
  | .error message => .error (.panicked message)

/-- Runs the flight with at most `fuel` invocations. -/
def run (call : Invocation σ) : Nat → σ → Flight → (σ × Flight) × RunEnd
  | 0, s, f => ((s, f), .unfinished)
  | fuel + 1, s, f =>
    match f.start with
    | (f, .refused) => ((s, f), .refused)
    | (f, .panicked message) => ((s, f), .panicked message)
    | (f, .invoke input token) =>
      let ((s, f), ended) := call s f input token
      match f.settle token (caught ended) with
      | (f, .dropped) => ((s, f), .dropped)
      | (f, .stored) => ((s, f), .stored)
      | (f, .again) => run call fuel s f

end SingleFlight.Flight
