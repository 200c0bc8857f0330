import SingleFlight.Action
import SingleFlight.Failure
import SingleFlight.Payload

/-!
# Registrations

A registration is what the scheduler knows of an action: its kind, the types of its input and
output, and whether failures have a sink of their own. It decides which inputs the function is
called with, what its reply means and which callback the outcome goes to.
-/

namespace SingleFlight

variable [Payloads]

/-- What a function ended with. -/
inductive Reply
  | value (output : Option Payload)
  | failed (chain : CauseChain)
  | panicked (value : PanicValue)
deriving Inhabited

/-- What an invocation ended with; no value means that it produced nothing. -/
abbrev Outcome := Except Failure (Option Payload)

/-- Where an outcome goes. -/
inductive Delivery
  /-- The result callback gets it. -/
  | result (outcome : Outcome)
  /-- The sink gets the failure. -/
  | sink (failure : Failure)
  /-- There is no sink; the failure is logged and dropped. -/
  | unreported (failure : Failure)
  /-- Nobody waits for a success. -/
  | none

/-- A call of one of the callbacks. -/
inductive CallbackCall
  | result (outcome : Outcome)
  | sink (failure : Failure)

/-- The calls of callbacks that a delivery makes, in their order. -/
def Delivery.calls : Delivery → List CallbackCall
  | .result outcome => [.result outcome]
  | .sink failure => [.sink failure]
  | .unreported _ => []
  | .none => []

/-- One registered action. -/
structure Registration where
  id : ActionId
  kind : ActionKind
  /-- The type of the input; an action without input leaves it at the unit type. -/
  input : PayloadType := .unit
  /-- The type of the value that the result callback takes. -/
  output : PayloadType := .own default
  hasSink : Bool := false
deriving DecidableEq, Inhabited

namespace Registration

/-- The type that inputs must have. -/
def inputType (r : Registration) : PayloadType :=
  match r.kind with
  | .void => .unit
  | _ => r.input

def accepts (r : Registration) (input : Payload) : Bool :=
  input.type = r.inputType

/-- The message for an input of another type. -/
def mismatch (r : Registration) (input : Payload) : String :=
  r.id.text ++ " expects " ++ r.inputType.name ++ ", got " ++ input.type.name

/-- The input that the function is called with; an action without input takes whatever it gets. -/
def callInput (r : Registration) (input : Payload) : Except Failure Payload :=
  match r.kind with
  | .void => .ok .unit
  | _ => if r.accepts input then .ok input else .error (.failed (.ofText (r.mismatch input)))

/-- A function is called with whatever input its action accepts. -/
theorem callInput_of_accepts {r : Registration} {input : Payload} (h : r.accepts input = true) :
    r.callInput input = .ok input := by
  unfold callInput
  cases hkind : r.kind with
  | void =>
    have htype : input.type = .unit := by simpa [accepts, inputType, hkind] using h
    rw [Payload.eq_unit htype]
  | get | set => simp [h]

/-- A copy is accepted where the value is. -/
theorem accepts_copied {r : Registration} {input : Payload} (h : r.accepts input = true) :
    r.accepts (Erased.copied input) = true := by
  simpa only [accepts, Payload.type_copied] using h

/-- The outcome that a reply stands for; the error is the message of the function's panic. -/
def outcome (r : Registration) : Reply → Except String Outcome
  | .value output =>
    match r.kind with
    | .get => .ok (.ok output)
    | _ => .ok (.ok none)
  | .failed chain => .ok (.error (.ofChain chain))
  | .panicked value => .error value.message

/-- Calls the function, which may act on a state, unless the input has the wrong type. The error is the
message of the function's panic. -/
def invoke (r : Registration) (function : σ → Payload → Token → σ × Reply) (s : σ) (input : Payload)
    (token : Token) : σ × Except String Outcome :=
  match r.callInput input with
  | .error failure => (s, .ok (.error failure))
  | .ok input =>
    let (s, reply) := function s input token
    (s, r.outcome reply)

/-- The outcome with a value of another type than the result callback takes made a failure. -/
def typed (r : Registration) : Outcome → Outcome
  | .ok (some value) =>
    if value.type = r.output then .ok (some value)
    else
      .error (.failed (.ofText (r.id.text ++ " produced a value that is not " ++ r.output.name)))
  | outcome => outcome

/-- Which callback an outcome goes to. -/
def deliver (r : Registration) (outcome : Outcome) : Delivery :=
  match r.kind with
  | .get =>
    match r.typed outcome, r.hasSink with
    | .error failure, true => .sink failure
    | typed, _ => .result typed
  | _ =>
    match outcome, r.hasSink with
    | .ok _, _ => .none
    | .error failure, true => .sink failure
    | .error failure, false => .unreported failure

/-- The registration as a value. -/
def description (r : Registration) : String :=
  let sink := ("has_error_sink", if r.hasSink then "true" else "false")
  let input := ("input", Text.quoted r.inputType.name)
  match r.kind with
  | .get =>
    Text.fields "GetRecord"
      [("id", r.id.description), input, ("output", Text.quoted r.output.name), sink]
  | .set => Text.fields "SetRecord" [("id", r.id.description), input, sink]
  | .void => Text.fields "VoidRecord" [("id", r.id.description), sink]

end Registration

end SingleFlight
