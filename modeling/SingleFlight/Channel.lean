/-!
# Bounded channels

A queue with a limited number of places between many senders and many receivers. A receiver that
finds the queue empty waits, and a value sent while receivers wait goes straight to the one that
waits longest, without taking a place. A channel without places is a pure hand-over.
-/

namespace SingleFlight

/-- A channel of values, with its receivers by number. -/
structure Channel (α : Type) where
  capacity : Nat
  /-- The values in the queue, oldest first. -/
  buffer : List α := []
  /-- The receivers that wait, longest waiting first. -/
  waiting : List Nat := []
  isOpen : Bool := true

/-- What became of a value that was sent. -/
inductive Sending
  | handed (receiver : Nat)
  | buffered
  | full
  | closed
deriving DecidableEq, Repr

/-- What a receiver got. -/
inductive Receipt (α : Type)
  | value (a : α)
  /-- The receiver waits. -/
  | waiting
  /-- The channel is closed and empty. -/
  | closed

namespace Channel

/-- Sends without waiting. -/
def send (c : Channel α) (a : α) : Channel α × Sending :=
  if !c.isOpen then (c, .closed)
  else
    match c.waiting with
    | receiver :: rest => ({ c with waiting := rest }, .handed receiver)
    | [] =>
      if c.buffer.length < c.capacity then ({ c with buffer := c.buffer ++ [a] }, .buffered)
      else (c, .full)

/-- Takes the oldest value or starts to wait. -/
def receive (c : Channel α) (receiver : Nat) : Channel α × Receipt α :=
  match c.buffer with
  | a :: rest => ({ c with buffer := rest }, .value a)
  | [] =>
    if c.isOpen then ({ c with waiting := c.waiting ++ [receiver] }, .waiting) else (c, .closed)

/-- Ends the wait of a receiver. -/
def withdraw (c : Channel α) (receiver : Nat) : Channel α :=
  { c with waiting := c.waiting.filter (· ≠ receiver) }

/-- Closes the channel and empties the queue; nobody waits any more. -/
def close (c : Channel α) : Channel α × List α :=
  ({ c with buffer := [], waiting := [], isOpen := false }, c.buffer)

end Channel

end SingleFlight
