/-!
# Cancellation

A running function learns through its token that its work is stale. The token remembers the
generation its invocation started with; the signal it looks at holds the current generation and
whether the work was interrupted.
-/

namespace SingleFlight

/-- Why an invocation was asked to stop. -/
inductive Cancelled
  | superseded
  | interrupted
deriving DecidableEq, Repr, Inhabited

namespace Cancelled

def message : Cancelled → String
  | superseded => "input was superseded by a newer request"
  | interrupted => "scheduler is shutting down"

/-- The reason as a value. -/
def description : Cancelled → String
  | superseded => "Superseded"
  | interrupted => "Interrupted"

end Cancelled

/-- What tokens look at: the generation of the newest input, and whether work was interrupted. -/
structure Signal where
  generation : UInt64 := 0
  interrupted : Bool := false
deriving DecidableEq, Repr, Inhabited

namespace Signal

/-- A newer input arrived; the generation wraps around. -/
def bump (s : Signal) : Signal := { s with generation := s.generation + 1 }

def interrupt (s : Signal) : Signal := { s with interrupted := true }

/-- A generation comes back only with `2 ^ 64` newer inputs. -/
theorem counted_eq_iff {g : UInt64} {n : Nat} (h : n < UInt64.size) : g + UInt64.ofNat n = g ↔ n = 0 := by
  rw [UInt64.add_eq_left, ← UInt64.toNat_inj, UInt64.toNat_ofNat_of_lt' h]
  rfl

end Signal

/-- The generation that an invocation's input belongs to. -/
structure Token where
  started : UInt64
deriving DecidableEq, Repr, Inhabited

namespace Token

def isSuperseded (t : Token) (s : Signal) : Bool := s.generation ≠ t.started

/-- Why the invocation should stop, if it should; an interruption hides a newer input. -/
def check (t : Token) (s : Signal) : Option Cancelled :=
  if s.interrupted then some .interrupted
  else if t.isSuperseded s then some .superseded
  else none

def isCancelled (t : Token) (s : Signal) : Bool := s.interrupted || t.isSuperseded s

end Token

end SingleFlight
