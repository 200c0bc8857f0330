import SingleFlight.Cancellation
import SingleFlight.Text.Quoted
import SingleFlight.Text.Shape

/-!
# Failures of actions

A function fails with a chain of causes, or it panics. A chain with a cancellation anywhere in it
is a cancellation; the outermost one counts.
-/

namespace SingleFlight

/-- The message of a cancellation that is delivered as a failure. -/
def Cancelled.failureMessage (c : Cancelled) : String := "Action cancelled: " ++ c.message

/-- One element of a chain. -/
inductive Cause
  | text (message : String)
  | cancelled (reason : Cancelled)
  /-- The failure of another action that was cancelled; it does not count as a cancellation. -/
  | failure (reason : Cancelled)
  /-- Any other error, with the messages of the errors that it comes from. -/
  | error (message : String) (sources : List String)
deriving DecidableEq, Repr, Inhabited

namespace Cause

def message : Cause → String
  | text m => m
  | cancelled c => c.message
  | failure c => c.failureMessage
  | error m _ => m

/-- The messages below a cause that no context hides. -/
def sources : Cause → List String
  | failure c => [c.message]
  | error _ below => below
  | _ => []

def cancellation? : Cause → Option Cancelled
  | cancelled c => some c
  | _ => none

end Cause

/-- A root cause under contexts, the outermost context first. -/
structure CauseChain where
  contexts : List Cause := []
  root : Cause
deriving DecidableEq, Repr, Inhabited

namespace CauseChain

def ofText (message : String) : CauseChain := { root := .text message }

def ofCancelled (c : Cancelled) : CauseChain := { root := .cancelled c }

/-- The chain with one more context around it. -/
def wrap (chain : CauseChain) (context : Cause) : CauseChain :=
  { chain with contexts := context :: chain.contexts }

/-- The causes, outermost first. -/
def causes (chain : CauseChain) : List Cause := chain.contexts ++ [chain.root]

/-- All messages, outermost first. -/
def messages (chain : CauseChain) : List String :=
  chain.causes.map Cause.message ++ chain.root.sources

/-- The outermost message. -/
def message (chain : CauseChain) : String :=
  match chain.contexts with
  | [] => chain.root.message
  | context :: _ => context.message

/-- The messages below the outermost one. -/
def sources (chain : CauseChain) : List String := chain.messages.drop 1

/-- All messages on one line. -/
def fullMessage (chain : CauseChain) : String := Text.joined ": " chain.messages

/-- The outermost cancellation in the chain. -/
def cancellation? (chain : CauseChain) : Option Cancelled :=
  chain.causes.findSome? Cause.cancellation?

/-- Looks for a cancellation from the outermost of the contexts down to the root; a chain that has none is
handed back. -/
def search (root : Cause) : List Cause → Except CauseChain Cancelled
  | [] => root.cancellation?.elim (.error { root }) .ok
  | context :: contexts =>
    match context.cancellation? with
    | some c => .ok c
    | none => (search root contexts).mapError (wrap · context)

/-- Takes the outermost cancellation out of the chain, or hands the chain back. -/
def downcast (chain : CauseChain) : Except CauseChain Cancelled := search chain.root chain.contexts

end CauseChain

/-- What is delivered when an action did not succeed. -/
inductive Failure
  | cancelled (reason : Cancelled)
  | panicked (message : String)
  | failed (chain : CauseChain)
deriving DecidableEq, Repr, Inhabited

namespace Failure

/-- What a chain is, given a way to take a cancellation out of chains. -/
def classify (downcast : CauseChain → Except CauseChain Cancelled) (chain : CauseChain) : Failure :=
  match downcast chain with
  | .ok c => cancelled c
  | .error rest => failed rest

/-- The failure that a chain stands for. -/
def ofChain (chain : CauseChain) : Failure := classify CauseChain.downcast chain

def message : Failure → String
  | cancelled c => c.failureMessage
  | panicked m => "Action panicked: " ++ m
  | failed chain => chain.message

/-- The message with everything below it. -/
def fullMessage : Failure → String
  | failed chain => chain.fullMessage
  | failure => failure.message

/-- The messages of what caused the failure, outermost first. -/
def sources : Failure → List String
  | cancelled c => [c.message]
  | panicked _ => []
  | failed chain => chain.sources

def isCancelled : Failure → Bool
  | cancelled _ => true
  | _ => false

end Failure

/-- What a panic carries: a text, or a value that has none. -/
inductive PanicValue
  | text (message : String)
  | other
deriving DecidableEq, Repr, Inhabited

/-- The message of a panic. -/
def PanicValue.message : PanicValue → String
  | text m => m
  | other => "Unknown panic"

end SingleFlight
