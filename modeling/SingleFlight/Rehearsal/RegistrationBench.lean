import SingleFlight.Rehearsal.FlightBench

/-!
# A registration on the bench

One registration with a scripted function, invoked with tokens of every state and delivered by
hand.
-/

namespace SingleFlight.Rehearsal

/-- The states a token can be in when a function is called with it. -/
inductive TokenKind
  | live
  | superseded
  | interrupted
  /-- A token of no flight, which is never cancelled. -/
  | never
deriving DecidableEq, Repr

/-- A token of the state, and the signal that it looks at. -/
def TokenKind.token (kind : TokenKind) (started : UInt64) : Token × Signal :=
  match kind with
  | live => (⟨started⟩, { generation := started })
  | superseded => (⟨started⟩, ({ generation := started } : Signal).bump)
  | interrupted => (⟨started⟩, ({ generation := started } : Signal).interrupt)
  | never => (⟨0⟩, {})

structure RegistrationBench where
  registration : Registration
  reply : ReplyPlan := .echo
  /-- Whether the function looks at its token first. -/
  checks : Bool := false
  calls : Nat := 0
  /-- The outcome of the last invocation. -/
  last : Option Outcome := none

namespace RegistrationBench

/-- The scripted function: counts its calls and notes what it is called with. -/
def function (b : RegistrationBench) (signal : Signal) (state : Nat × List FlightNote) (input : Payload)
    (token : Token) : (Nat × List FlightNote) × Reply :=
  let n := state.1 + 1
  let text := input.description
  let reply :=
    match b.checks, token.check signal with
    | true, some reason => .failed (.ofCancelled reason)
    | _, _ => b.reply.reply text n
  ((n, state.2 ++ [.call text token.started (tokenState token signal)]), reply)

/-- Invokes the registration; the error is the message of a panic. -/
def invoke (b : RegistrationBench) (input : Payload) (token : Token) (signal : Signal) :
    RegistrationBench × List FlightNote × Except String Outcome :=
  let ((calls, notes), ended) := b.registration.invoke (b.function signal) (b.calls, []) input token
  let last :=
    match ended with
    | .ok outcome => some outcome
    | .error _ => b.last
  ({ b with calls, last }, notes, ended)

/-- What the callbacks record of an outcome. -/
def deliver (b : RegistrationBench) (outcome : Outcome) : List FlightNote :=
  deliveryNotes (b.registration.deliver outcome)

/-- Delivers the outcome of the last invocation, or an empty one. -/
def deliverLast (b : RegistrationBench) : RegistrationBench × List FlightNote :=
  ({ b with last := none }, b.deliver (b.last.getD (.ok none)))

end RegistrationBench

end SingleFlight.Rehearsal
