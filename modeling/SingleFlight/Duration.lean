/-!
# Durations

Spans of time in whole nanoseconds, and their text in the largest unit that fits.
-/

namespace SingleFlight

/-- A span of time. -/
structure Duration where
  nanoseconds : Nat
deriving DecidableEq, Repr, Inhabited

namespace Duration

def seconds (n : Nat) : Duration := ⟨n * 1000000000⟩

def isZero (d : Duration) : Bool := d.nanoseconds = 0

/-- All digits of a fraction of `10 ^ places`. -/
def paddedDigits (fraction : Nat) : Nat → List Char
  | 0 => []
  | places + 1 => paddedDigits (fraction / 10) places ++ [Nat.digitChar (fraction % 10)]

/-- A number of units with `places` decimal places, given in the smallest step. -/
def inUnit (steps places : Nat) (unit : String) : String :=
  let scale := Nat.pow 10 places
  let digits := ((paddedDigits (steps % scale) places).reverse.dropWhile (· = '0')).reverse
  let fraction := if digits.isEmpty then "" else "." ++ String.ofList digits
  toString (steps / scale) ++ fraction ++ unit

/-- Seconds, milliseconds, microseconds or nanoseconds, whichever is the largest unit that fits. -/
def text (d : Duration) : String :=
  let n := d.nanoseconds
  if 1000000000 ≤ n then inUnit n 9 "s"
  else if 1000000 ≤ n then inUnit n 6 "ms"
  else if 1000 ≤ n then inUnit n 3 "µs"
  else inUnit n 0 "ns"

end Duration

end SingleFlight
