/-!
# Binary floating-point numbers

Numbers of 64 bits by their bit pattern: one sign bit, eleven exponent bits, fifty-two fraction
bits. Equality of values is not equality of patterns: the two zeros are the same value, and a
pattern that is not a number is the same as nothing.
-/

namespace SingleFlight.Decimal

/-- A floating-point number, given by its bit pattern. -/
structure Binary64 where
  bits : UInt64
deriving DecidableEq, Repr, Inhabited

namespace Binary64

/-- What a bit pattern stands for: no number, an infinity, or `significand * 2 ^ exponent`. -/
inductive Value
  | notANumber
  | infinite (negative : Bool)
  | finite (negative : Bool) (significand : Nat) (exponent : Int)
deriving DecidableEq, Repr

def isNegative (x : Binary64) : Bool :=
  Nat.pow 2 63 ≤ x.bits.toNat

def exponentBits (x : Binary64) : Nat :=
  x.bits.toNat / Nat.pow 2 52 % Nat.pow 2 11

def fractionBits (x : Binary64) : Nat :=
  x.bits.toNat % Nat.pow 2 52

def value (x : Binary64) : Value :=
  if x.exponentBits = 2047 then
    if x.fractionBits = 0 then .infinite x.isNegative else .notANumber
  else if x.exponentBits = 0 then .finite x.isNegative x.fractionBits (-1074)
  else .finite x.isNegative (Nat.pow 2 52 + x.fractionBits) ((x.exponentBits : Int) - 1075)

def isNaN (x : Binary64) : Bool :=
  x.exponentBits = 2047 && x.fractionBits != 0

def isZero (x : Binary64) : Bool :=
  x.exponentBits = 0 && x.fractionBits = 0

/-- Equality of values: zeros of both signs agree, and what is not a number agrees with nothing. -/
def same (x y : Binary64) : Bool :=
  !x.isNaN && !y.isNaN && (x.bits == y.bits || (x.isZero && y.isZero))

section
variable {x y z : Binary64}

theorem same_iff :
    x.same y = true ↔ x.isNaN = false ∧ y.isNaN = false ∧ (x = y ∨ x.isZero = true ∧ y.isZero = true) := by
  have hbits : x.bits = y.bits ↔ x = y := ⟨fun h => by cases x; cases h; rfl, fun h => h ▸ rfl⟩
  simp [same, hbits, and_assoc]

theorem same_symm (h : x.same y = true) : y.same x = true := by
  obtain ⟨hx, hy, h⟩ := same_iff.mp h
  exact same_iff.mpr ⟨hy, hx, h.imp Eq.symm And.symm⟩

theorem same_trans (h : x.same y = true) (h' : y.same z = true) : x.same z = true := by
  obtain ⟨hx, -, rfl | ⟨hzero, -⟩⟩ := same_iff.mp h
  · exact h'
  · obtain ⟨-, hz, rfl | ⟨-, hzero'⟩⟩ := same_iff.mp h'
    · exact h
    · exact same_iff.mpr ⟨hx, hz, .inr ⟨hzero, hzero'⟩⟩

end

/-- The pattern with the given sign and magnitude bits. -/
def ofMagnitude (negative : Bool) (magnitude : Nat) : Binary64 :=
  ⟨UInt64.ofNat (magnitude + if negative then Nat.pow 2 63 else 0)⟩

def infinityBits : Nat := 2047 * Nat.pow 2 52

def infinity (negative : Bool) : Binary64 := ofMagnitude negative infinityBits

def nan : Binary64 := ofMagnitude false (infinityBits + Nat.pow 2 51)

/-- The quotient to the nearest whole number, a half to the even neighbour. -/
def roundedQuotient (numerator denominator : Nat) : Nat :=
  let below := numerator / denominator
  let twice := 2 * (numerator % denominator)
  if twice < denominator then below
  else if denominator < twice then below + 1
  else below + below % 2

/-- The number nearest to a positive fraction. -/
def ofFraction (negative : Bool) (numerator denominator : Nat) : Binary64 :=
  if numerator = 0 || denominator = 0 then ofMagnitude negative 0
  else
    let estimate : Int := (Nat.log2 numerator : Int) - Nat.log2 denominator
    let reaches : Bool :=
      if 0 ≤ estimate then denominator * Nat.pow 2 estimate.toNat ≤ numerator
      else denominator ≤ numerator * Nat.pow 2 (-estimate).toNat
    let exponent : Int := max ((if reaches then estimate else estimate - 1) - 52) (-1074)
    let significand :=
      if 0 ≤ exponent then roundedQuotient numerator (denominator * Nat.pow 2 exponent.toNat)
      else roundedQuotient (numerator * Nat.pow 2 (-exponent).toNat) denominator
    ofMagnitude negative (min infinityBits ((exponent + 1074).toNat * Nat.pow 2 52 + significand))

/-- The number nearest to `digits * 10 ^ exponent`. -/
def ofDecimal (negative : Bool) (digits : Nat) (exponent : Int) : Binary64 :=
  let size : Int := (Nat.log2 digits : Int) / 3 + 1 + exponent
  if digits = 0 || size < -400 then ofMagnitude negative 0
  else if 800 < (Nat.log2 digits : Int) / 4 + exponent then infinity negative
  else if 0 ≤ exponent then ofFraction negative (digits * Nat.pow 10 exponent.toNat) 1
  else ofFraction negative digits (Nat.pow 10 (-exponent).toNat)

end Binary64

end SingleFlight.Decimal
