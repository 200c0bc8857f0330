import SingleFlight.Decimal.Binary64

/-!
# Shortest decimal text

The decimal text of a floating-point number: the fewest digits that read back to it, of those the
nearest, positional from `1e-4` up to below `1e16`, with an exponent elsewhere.
-/

namespace SingleFlight.Decimal

/-- A positive number with the ends of the interval of numbers that round to it, all three over one
denominator; the ends belong to the interval iff `closed`. -/
structure Rounding where
  value : Nat
  low : Nat
  high : Nat
  denominator : Nat
  closed : Bool
deriving DecidableEq, Repr

/-- The numbers that round to `significand * 2 ^ exponent`. -/
def Rounding.of (significand : Nat) (exponent : Int) : Rounding :=
  let scale := Nat.pow 2 exponent.toNat
  let below := if significand = Nat.pow 2 52 && -1074 < exponent then 1 else 2
  { value := 4 * significand * scale
    low := (4 * significand - below) * scale
    high := (4 * significand + 2) * scale
    denominator := 4 * Nat.pow 2 (-exponent).toNat
    closed := significand % 2 = 0 }

/-- Whether `numerator / denominator` rounds to the number. -/
def Rounding.holds (r : Rounding) (numerator denominator : Nat) : Bool :=
  let low := r.low * denominator
  let high := r.high * denominator
  let target := numerator * r.denominator
  if r.closed then low ≤ target && target ≤ high else low < target && target < high

/-- The number in units of `10 ^ place`: numerator and denominator. -/
def Rounding.inUnits (r : Rounding) (place : Int) : Nat × Nat :=
  (r.value * Nat.pow 10 (-place).toNat, r.denominator * Nat.pow 10 place.toNat)

/-- The multiple of `10 ^ place` that rounds to the number, the nearer one if there are two. -/
def Rounding.onGrid? (r : Rounding) (place : Int) : Option Nat :=
  let (numerator, denominator) := r.inUnits place
  let below := numerator / denominator
  let holds (n : Nat) : Bool := r.holds (n * Nat.pow 10 place.toNat) (Nat.pow 10 (-place).toNat)
  let belowIsNearer : Bool := 2 * (numerator % denominator) ≤ denominator
  if holds below && (belowIsNearer || !holds (below + 1)) then some below
  else if holds (below + 1) then some (below + 1)
  else none

/-- The exponent of the first digit, searched upward from a lower bound. -/
def Rounding.leadingPlace (r : Rounding) : Nat → Int → Int
  | 0, place => place
  | n + 1, place =>
    let (numerator, denominator) := r.inUnits (place + 1)
    if denominator ≤ numerator then r.leadingPlace n (place + 1) else place

/-- The coarsest grid with a multiple that rounds to the number, tried from `place` downward. -/
def Rounding.search (r : Rounding) : Nat → Int → Nat × Int
  | 0, place => (r.value * Nat.pow 10 (-place).toNat / (r.denominator * Nat.pow 10 place.toNat), place)
  | n + 1, place =>
    match r.onGrid? place with
    | some digits => (digits, place)
    | none => r.search n (place - 1)

/-- The shortest digits of a positive number and the exponent of the last one. -/
def Rounding.shortest (r : Rounding) : Nat × Int :=
  r.search 17 (r.leadingPlace 640 (-330))

def dropZeros : Nat → Nat → Int → Nat × Int
  | 0, digits, place => (digits, place)
  | n + 1, digits, place =>
    if digits % 10 = 0 then dropZeros n (digits / 10) (place + 1) else (digits, place)

def zeros (n : Nat) : List Char := List.replicate n '0'

def positional (digits : List Char) (places : Int) : List Char :=
  if places ≤ 0 then ['0', '.'] ++ zeros (-places).toNat ++ digits
  else if digits.length ≤ places.toNat then digits ++ zeros (places.toNat - digits.length) ++ ['.', '0']
  else digits.take places.toNat ++ '.' :: digits.drop places.toNat

/-- Digits with a point after the first one and the exponent of that one. -/
def scientific (digits : List Char) (exponent : Int) : List Char :=
  let tail := digits.drop 1
  digits.take 1 ++ (if tail.isEmpty then [] else '.' :: tail) ++ 'e' :: (toString exponent).toList

/-- The text of `digits * 10 ^ place`. -/
def decimalText (digits : Nat) (place : Int) : List Char :=
  let shown := Nat.toDigits 10 digits
  let places := place + shown.length
  if -4 < places && places ≤ 16 then positional shown places else scientific shown (places - 1)

/-- The shortest text that reads back to the number. -/
def Binary64.text (x : Binary64) : String :=
  match x.value with
  | .notANumber => "NaN"
  | .infinite negative => if negative then "-inf" else "inf"
  | .finite negative significand exponent =>
    let magnitude :=
      if significand = 0 then positional ['0'] 1
      else
        let (digits, place) := (Rounding.of significand exponent).shortest
        let (digits, place) := dropZeros 20 digits place
        decimalText digits place
    String.ofList (if negative then '-' :: magnitude else magnitude)

end SingleFlight.Decimal
