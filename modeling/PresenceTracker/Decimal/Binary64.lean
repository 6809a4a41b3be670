/-!
# Binary floating point with 64 bits

Finite numbers that are not negative, as a mantissa of at most 53 bits times a power
of two. A ratio is rounded to the nearest of them, a tie to the even mantissa; one
that is too large has no form. Products and quotients are rounded the same way.
-/

namespace PresenceTracker.Decimal

/-- A finite number that is not negative: `mantissa * 2 ^ exponent`. -/
structure Binary64 where
  /-- At most 53 bits; 53 bits unless the exponent is the least one. -/
  mantissa : Nat
  /-- From -1074 to 971. -/
  exponent : Int
  deriving DecidableEq, Repr

namespace Binary64

/-- The least exponent. -/
def minExponent : Int := -1074

/-- The greatest exponent. -/
def maxExponent : Int := 971

/-- Zero. -/
def zero : Binary64 := ⟨0, minExponent⟩

/-- A power of two as a numerator and a denominator. -/
def scale (exponent : Int) : Nat × Nat :=
  if 0 ≤ exponent then (Nat.pow 2 exponent.toNat, 1) else (1, Nat.pow 2 (-exponent).toNat)

/-- The quotient rounded to the nearest integer, a tie to the even one. -/
def roundDiv (numerator denominator : Nat) : Nat :=
  let quotient := numerator / denominator
  let twice := 2 * (numerator % denominator)
  if denominator < twice || (twice == denominator && quotient % 2 == 1) then quotient + 1
  else quotient

/-- The exponent that gives a ratio a mantissa of 53 bits, or the least exponent. -/
def exponentFor (numerator denominator : Nat) : Int :=
  let estimate : Int := (Nat.log2 numerator : Int) - Nat.log2 denominator
  let (up, down) := scale estimate
  let exact := if denominator * up ≤ numerator * down then estimate else estimate - 1
  max (exact - 52) minExponent

/-- The number nearest to a ratio; nothing if the ratio is too large. -/
def ofRatio? (numerator denominator : Nat) : Option Binary64 :=
  if numerator = 0 then some zero
  else
    let exponent := exponentFor numerator denominator
    let (up, down) := scale exponent
    let mantissa := roundDiv (numerator * down) (denominator * up)
    let result : Binary64 :=
      if mantissa = Nat.pow 2 53 then ⟨Nat.pow 2 52, exponent + 1⟩ else ⟨mantissa, exponent⟩
    if maxExponent < result.exponent then none else some result

/-- A number as a ratio. -/
def ratio (value : Binary64) : Nat × Nat :=
  let (up, down) := scale value.exponent
  (value.mantissa * up, down)

/-- The rounded product. -/
def mul? (left right : Binary64) : Option Binary64 :=
  ofRatio? (left.ratio.1 * right.ratio.1) (left.ratio.2 * right.ratio.2)

/-- The rounded quotient by a number that is not zero. -/
def div? (left right : Binary64) : Option Binary64 :=
  ofRatio? (left.ratio.1 * right.ratio.2) (left.ratio.2 * right.ratio.1)

/-- The number nearest to `digits * 10 ^ exponent`. -/
def ofDecimal? (digits : Nat) (exponent : Int) : Option Binary64 :=
  if 0 ≤ exponent then ofRatio? (digits * Nat.pow 10 exponent.toNat) 1
  else ofRatio? digits (Nat.pow 10 (-exponent).toNat)

/-- The integer nearest to a number, a half going up. -/
def round (value : Binary64) : Nat :=
  let (numerator, denominator) := value.ratio
  (2 * numerator + denominator) / (2 * denominator)

end Binary64

end PresenceTracker.Decimal
