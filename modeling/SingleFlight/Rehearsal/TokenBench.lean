import SingleFlight.Cancellation

/-!
# Tokens on the bench

Tokens that share one signal, and tokens that are never cancelled.
-/

namespace SingleFlight.Rehearsal

/-- A token with the signal that it looks at. -/
structure HeldToken where
  token : Token
  /-- Whether the signal is the shared one; the other one never changes. -/
  isShared : Bool

inductive TokenStep
  | new (started : UInt64)
  | never
  | clone (place : Nat)
  | bump
  | setGeneration (generation : UInt64)
  | interrupt
  | resume

/-- A signal with the tokens that were made. -/
structure TokenBench where
  signal : Signal := {}
  tokens : List HeldToken := []

namespace TokenBench

/-- The signal that a token looks at. -/
def signalOf (b : TokenBench) (t : HeldToken) : Signal := if t.isShared then b.signal else {}

def step (b : TokenBench) : TokenStep → TokenBench
  | .new started => { b with tokens := b.tokens ++ [⟨⟨started⟩, true⟩] }
  | .never => { b with tokens := b.tokens ++ [⟨⟨0⟩, false⟩] }
  | .clone place => { b with tokens := b.tokens ++ (b.tokens[place]?).toList }
  | .bump => { b with signal := b.signal.bump }
  | .setGeneration generation => { b with signal := { b.signal with generation } }
  | .interrupt => { b with signal := b.signal.interrupt }
  | .resume => { b with signal := { b.signal with interrupted := false } }

end TokenBench

end SingleFlight.Rehearsal
