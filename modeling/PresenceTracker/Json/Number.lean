import PresenceTracker.Decimal.Shortest
import PresenceTracker.Json.Basic

/-!
# Numbers of generic JSON values

Integers are kept exactly as long as they fit 64 bits, signed if they are negative. All
other numbers are binary floating point: the leading digits that fit an unsigned 64-bit
word are scaled by a power of ten, each step rounded. A number that is too large is out
of range.
-/

namespace PresenceTracker

/-- A number of a generic JSON value. -/
inductive JsonNumber where
  /-- An integer of 64 bits, signed if it is negative. -/
  | integer (value : Int)
  /-- A binary floating point number. -/
  | float (negative : Bool) (magnitude : Decimal.Binary64)
  deriving DecidableEq, Repr

namespace JsonNumber

open Decimal

/-- The greatest word into which digits are read. -/
def maxWord : Nat := UInt64.size - 1

/-- Reads digits into a word until one does not fit; the word, and how many digits are
left. -/
def readWord (word : Nat) : Digits → Nat × Nat
  | [] => (word, 0)
  | digit :: rest =>
    if maxWord < word * 10 + digit.val then (word, rest.length + 1)
    else readWord (word * 10 + digit.val) rest

/-- A number times a power of ten in floating point. Divisors beyond the range are applied
in two steps. -/
def scaleBy : Nat → Binary64 → Int → Option Binary64
  | 0, value, _ => some value
  | bound + 1, value, exponent =>
    if exponent.natAbs ≤ 308 then
      match Binary64.ofRatio? (Nat.pow 10 exponent.natAbs) 1 with
      | some power => if 0 ≤ exponent then value.mul? power else value.div? power
      | none => none
    else if value.mantissa = 0 then some value
    else if 0 ≤ exponent then none
    else
      match Binary64.ofRatio? (Nat.pow 10 308) 1 with
      | some power => (value.div? power).bind fun value => scaleBy bound value (exponent + 308)
      | none => none

/-- The magnitude of a literal in floating point. -/
def magnitude? (literal : NumberLiteral) : Option Binary64 :=
  let (word, skipped) := readWord 0 literal.whole
  let fraction := literal.fraction.getD []
  let (word, left) := readWord word fraction
  let places : Int := (skipped : Int) - ((fraction.length - left : Nat) : Int)
  let shift : Int := match literal.exponent with
    | none => 0
    | some (negative, digits) => if negative then -(toNat digits : Int) else toNat digits
  (Binary64.ofRatio? word 1).bind fun value => scaleBy 4 value (places + shift)

/-- Whether an integer fits 64 bits, signed if it is negative. -/
def fits (value : Int) : Bool := Int64.minValue.toInt ≤ value && value ≤ (maxWord : Int)

/-- The number a literal stands for; nothing if it is out of range. -/
def ofLiteral? (literal : NumberLiteral) : Option JsonNumber :=
  match literal.integer? with
  | some value =>
    if fits value then some (.integer value)
    else (magnitude? literal).map (.float literal.negative)
  | none => (magnitude? literal).map (.float literal.negative)

/-- The text of a number. -/
def text : JsonNumber → String
  | integer value => intText value
  | float negative magnitude =>
    (if negative then "-" else "") ++ magnitude.shortest.jsonText

end JsonNumber

end PresenceTracker
