import SingleFlight.Decimal.Binary64

/-!
# Reading decimal numbers

The written forms of a floating-point number: an optional sign, then a word for an infinity or for
what is not a number in any case, or digits with an optional point and an optional exponent.
-/

namespace SingleFlight.Decimal

/-- The value of a run of decimal digits after `start`. -/
def digitsValue (start : Nat) (digits : List Char) : Nat :=
  digits.foldl (fun n c => 10 * n + (c.toNat - '0'.toNat)) start

/-- A sign in front, if there is one. -/
def readSign : List Char → Bool × List Char
  | '-' :: rest => (true, rest)
  | '+' :: rest => (false, rest)
  | rest => (false, rest)

/-- The exponent at the end, zero if it is left out. -/
def readExponent? : List Char → Option Int
  | [] => some 0
  | c :: rest =>
    if c = 'e' || c = 'E' then
      let (negative, digits) := readSign rest
      if digits.isEmpty || !digits.all Char.isDigit then none
      else
        let size : Int := digitsValue 0 digits
        some (if negative then -size else size)
    else none

/-- Digits around an optional point, then an optional exponent. -/
def readMagnitude? (negative : Bool) (text : List Char) : Option Binary64 :=
  let whole := text.takeWhile Char.isDigit
  let rest := text.dropWhile Char.isDigit
  let (part, rest) :=
    match rest with
    | '.' :: rest => (rest.takeWhile Char.isDigit, rest.dropWhile Char.isDigit)
    | rest => ([], rest)
  if whole.isEmpty && part.isEmpty then none
  else
    (readExponent? rest).map fun exponent =>
      .ofDecimal negative (digitsValue 0 (whole ++ part)) (exponent - part.length)

/-- The number that a text stands for, `none` if it stands for no number. -/
def Binary64.parse? (text : String) : Option Binary64 :=
  let (negative, rest) := readSign text.toList
  let word := String.ofList (rest.map Char.toLower)
  if word = "nan" then some nan
  else if word = "inf" || word = "infinity" then some (infinity negative)
  else readMagnitude? negative rest

end SingleFlight.Decimal
