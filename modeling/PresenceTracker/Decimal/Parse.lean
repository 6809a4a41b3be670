import PresenceTracker.Decimal.Binary64
import PresenceTracker.Decimal.Digits
import PresenceTracker.Text

/-!
# Numbers in texts

Integers with an optional sign, and floating point numbers with an optional sign, point and
exponent. A magnitude that is too large to be held is infinite.
-/

namespace PresenceTracker.Decimal

/-- A floating point number as a setting may hold it. -/
inductive Float64 where
  /-- A finite number. -/
  | finite (negative : Bool) (magnitude : Binary64)
  /-- A number beyond all finite ones. -/
  | infinite (negative : Bool)
  /-- No number. -/
  | nan
  deriving DecidableEq, Repr

/-- The digit that a character stands for. -/
def digit? (c : Char) : Option (Fin 10) :=
  if '0' ≤ c ∧ c ≤ '9' then some (lastDigit (c.toNat - 48)) else none

/-- The digits that a text consists of. -/
def digits? (text : List Char) : Option Digits := text.mapM digit?

/-- The sign in front of a text, and the rest. -/
def splitSign : List Char → Bool × List Char
  | '-' :: rest => (true, rest)
  | '+' :: rest => (false, rest)
  | rest => (false, rest)

/-- The natural number that a text stands for; a plus may stand in front. -/
def nat? (text : List Char) : Option Nat :=
  let body := match text with
    | '+' :: rest => rest
    | _ => text
  if body.isEmpty then none else (digits? body).map toNat

/-- The integer that a text stands for. -/
def int? (text : List Char) : Option Int :=
  let (negative, body) := splitSign text
  if body.isEmpty then none
  else (digits? body).map fun found => if negative then -(toNat found : Int) else toNat found

namespace Float64

/-- The number with these digits and this power of ten of the last digit. A power of ten
that puts the number beyond all finite ones, or below all but zero, is not computed. -/
def ofDecimal (negative : Bool) (digits : Digits) (exponent : Int) : Float64 :=
  let value := toNat digits
  let order : Int := (Decimal.digits value).length + exponent
  if value = 0 || order < -400 then finite negative .zero
  else if 400 < order then infinite negative
  else
    match Binary64.ofDecimal? value exponent with
    | some magnitude => finite negative magnitude
    | none => infinite negative

/-- An integer as a floating point number. -/
def ofInt (value : Int) : Float64 :=
  match Binary64.ofRatio? value.natAbs 1 with
  | some magnitude => finite (value < 0) magnitude
  | none => infinite (value < 0)

/-- The exponent behind its mark: digits behind an optional sign. -/
def exponent? (text : List Char) : Option Int :=
  let (negative, body) := splitSign text
  if body.isEmpty then none
  else (digits? body).map fun found => if negative then -(toNat found : Int) else toNat found

/-- Whether a character marks an exponent. -/
def isExponentMark (c : Char) : Bool := c = 'e' || c = 'E'

/-- The finite number that a text without a sign stands for: digits, of which a point may
stand between, before or behind, and an exponent. -/
def unsigned? (negative : Bool) (text : List Char) : Option Float64 := do
  let front := text.takeWhile fun c => !isExponentMark c
  let exponent ← match text.drop front.length with
    | [] => some 0
    | _ :: rest => exponent? rest
  let whole := front.takeWhile fun c => c ≠ '.'
  let fraction := (front.drop whole.length).drop 1
  if whole.isEmpty && fraction.isEmpty then none
  else
    let digits ← digits? (whole ++ fraction)
    return ofDecimal negative digits (exponent - fraction.length)

/-- The number that a text stands for; words stand for what is not finite. -/
def parse? (text : List Char) : Option Float64 :=
  let (negative, body) := splitSign text
  let word := Text.fold (String.ofList body)
  if word = "inf" || word = "infinity" then some (infinite negative)
  else if word = "nan" then some nan
  else unsigned? negative body

end Float64

end PresenceTracker.Decimal
