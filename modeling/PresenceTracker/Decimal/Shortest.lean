import PresenceTracker.Decimal.Binary64
import PresenceTracker.Decimal.Digits

/-!
# The shortest decimal of a binary number

The fewest decimal digits that read back as the same binary number, and of those the
nearest to it. They are written positionally, or with an exponent when that is much
shorter.
-/

namespace PresenceTracker.Decimal

/-- A decimal number: `digits * 10 ^ exponent`. -/
structure Scientific where
  /-- The digits as one number. -/
  digits : Nat
  /-- The power of ten of the last digit. -/
  exponent : Int
  deriving DecidableEq, Repr

namespace Binary64

/-- The numbers of a binade border have a nearer neighbour below; the distances to the
ends of the rounding interval are in quarters of the last place. -/
def gapBelow (value : Binary64) : Nat :=
  if value.mantissa = Nat.pow 2 52 && minExponent < value.exponent then 1 else 2

/-- Whether a decimal number rounds to this binary number. -/
def admits (value : Binary64) (decimal : Scientific) : Bool :=
  let (up, down) := scale (value.exponent - 2)
  let power : Nat × Nat :=
    if 0 ≤ decimal.exponent then (Nat.pow 10 decimal.exponent.toNat, 1)
    else (1, Nat.pow 10 (-decimal.exponent).toNat)
  let point := decimal.digits * power.1 * down
  let unit := up * power.2
  let low := (4 * value.mantissa - value.gapBelow) * unit
  let high := (4 * value.mantissa + 2) * unit
  if value.mantissa % 2 = 0 then low ≤ point && point ≤ high else low < point && point < high

/-- The power of ten of the first digit of a ratio below one, counted down. -/
def leadingBelowOne (numerator denominator : Nat) : Nat → Nat → Int
  | 0, place => -(place : Int)
  | bound + 1, place =>
    if denominator ≤ numerator * Nat.pow 10 place then -(place : Int)
    else leadingBelowOne numerator denominator bound (place + 1)

/-- The power of ten of the first digit of a number that is not zero. -/
def leadingPlace (value : Binary64) : Int :=
  let (numerator, denominator) := value.ratio
  if denominator ≤ numerator then ((Decimal.digits (numerator / denominator)).length : Int) - 1
  else leadingBelowOne numerator denominator 330 1

/-- The neighbours of a number on the grid of the multiples of a power of ten, the nearer
one first. -/
def neighbours (value : Binary64) (exponent : Int) : List Scientific :=
  let (numerator, denominator) := value.ratio
  let (top, bottom) :=
    if 0 ≤ exponent then (numerator, denominator * Nat.pow 10 exponent.toNat)
    else (numerator * Nat.pow 10 (-exponent).toNat, denominator)
  let below : Scientific := ⟨top / bottom, exponent⟩
  let above : Scientific := ⟨top / bottom + 1, exponent⟩
  let twice := 2 * (top % bottom)
  if bottom < twice || (twice == bottom && below.digits % 2 == 1) then [above, below]
  else [below, above]

/-- The first admitted neighbour on ever finer grids. -/
def shortestFrom (value : Binary64) (place : Int) : Nat → Nat → Scientific
  | 0, count => (value.neighbours (place - count)).headD ⟨0, 0⟩
  | bound + 1, count =>
    match (value.neighbours (place - count)).find? value.admits with
    | some decimal => decimal
    | none => shortestFrom value place bound (count + 1)

/-- The shortest decimal that reads back, and of those the nearest. -/
def shortest (value : Binary64) : Scientific :=
  if value.mantissa = 0 then ⟨0, 0⟩ else shortestFrom value value.leadingPlace 17 0

end Binary64

namespace Scientific

/-- Takes trailing zeros off the digits. -/
def trimWithin : Nat → Scientific → Scientific
  | 0, decimal => decimal
  | bound + 1, decimal =>
    if decimal.digits ≠ 0 ∧ decimal.digits % 10 = 0 then
      trimWithin bound ⟨decimal.digits / 10, decimal.exponent + 1⟩
    else decimal

/-- The same number without trailing zeros. -/
def trim (decimal : Scientific) : Scientific := decimal.trimWithin 20

/-- A number of zeros. -/
def zeros (count : Nat) : String := String.ofList (List.replicate count '0')

/-- The positional form; an integer has no point. -/
def positional (decimal : Scientific) : String :=
  let decimal := decimal.trim
  let text := natText decimal.digits
  if 0 ≤ decimal.exponent then text ++ zeros decimal.exponent.toNat
  else
    let places := (-decimal.exponent).toNat
    if places < text.length then
      (text.take (text.length - places)).copy ++ "." ++ (text.drop (text.length - places)).copy
    else "0." ++ zeros (places - text.length) ++ text

/-- The form in JSON text: positional with a point where the first digit stands at one of
the places from 15 down to -5, otherwise one digit, a point if there are more, and an
exponent with its sign. -/
def jsonText (decimal : Scientific) : String :=
  let decimal := decimal.trim
  if decimal.digits = 0 then "0.0"
  else
    let text := natText decimal.digits
    let first : Int := text.length + decimal.exponent
    if 0 ≤ decimal.exponent && first ≤ 16 then decimal.positional ++ ".0"
    else if -5 < first && first ≤ 16 then decimal.positional
    else
      let point := if text.length = 1 then "" else "."
      let sign := if 0 < first then "+" else ""
      (text.take 1).copy ++ point ++ (text.drop 1).copy ++ "e" ++ sign ++ intText (first - 1)

end Scientific

end PresenceTracker.Decimal
