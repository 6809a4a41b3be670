import PresenceTracker.Decimal.Digits
import PresenceTracker.Failure

/-!
# JSON values as written

The tree of a JSON text. It keeps what readers of a certain shape tell apart later:
the digits of a number as they stand, the members of an object in their order with
repetitions, and for a string literal whether it denotes a text at all. A literal that
holds a lone surrogate or bytes that are no UTF-8 is harmless in a part of the text that
nobody looks at, and an error everywhere else.
-/

namespace PresenceTracker

/-- A number as it is written. -/
structure NumberLiteral where
  /-- Whether a minus stands in front. -/
  negative : Bool
  /-- The digits in front of the point. -/
  whole : Decimal.Digits
  /-- The digits behind the point, if there is one. -/
  fraction : Option Decimal.Digits := none
  /-- The exponent, if there is one: whether it is negative, and its digits. -/
  exponent : Option (Bool × Decimal.Digits) := none
  deriving DecidableEq, Repr

/-- The tree of a JSON text. -/
inductive Json where
  /-- The literal `null`. -/
  | null
  /-- The literal `true` or `false`. -/
  | bool (value : Bool)
  /-- A number. -/
  | number (literal : NumberLiteral)
  /-- A string, with the text it denotes if it denotes one. -/
  | string (text : Option String)
  /-- An array. -/
  | array (items : List Json)
  /-- An object; its members in order, repeated keys included. -/
  | object (members : List (Option String × Json))
  deriving Repr

/-- Why a JSON text does not stand for a value of a certain shape. -/
inductive Json.Fault where
  /-- The text is no JSON. -/
  | malformed
  /-- Arrays and objects are nested too deeply. -/
  | tooDeep
  /-- A string denotes no text. -/
  | unsoundText
  /-- A number is out of range. -/
  | outOfRange
  /-- The value is of another shape. -/
  | mismatch (wanted : String)
  /-- A field is not there. -/
  | missing (field : String)
  /-- A field is there more than once. -/
  | repeated (field : String)
  deriving DecidableEq, Repr

/-- The text of a fault. -/
def Json.Fault.text : Json.Fault → String
  | malformed => "malformed text"
  | tooDeep => "nesting limit exceeded"
  | unsoundText => "a string that denotes no text"
  | outOfRange => "number out of range"
  | mismatch wanted => "expected " ++ wanted
  | missing field => "missing field " ++ field
  | repeated field => "repeated field " ++ field

/-- What a fault is reported as. -/
def Json.Fault.failure (fault : Json.Fault) : Failure := .json fault.text

namespace NumberLiteral

/-- The integer that a literal without point and exponent stands for. Minus zero is no
integer. -/
def integer? (literal : NumberLiteral) : Option Int :=
  if literal.fraction.isSome || literal.exponent.isSome then none
  else
    let size := Decimal.toNat literal.whole
    if literal.negative then if size = 0 then none else some (-(size : Int)) else some size

/-- The literal of an integer. -/
def ofInt (value : Int) : NumberLiteral := ⟨value < 0, Decimal.digits value.natAbs, none, none⟩

theorem integer?_ofInt (value : Int) : (ofInt value).integer? = some value := by
  simp only [ofInt, integer?, Decimal.toNat_digits, Option.isSome_none, Bool.or_self,
    Bool.false_eq_true, if_false, decide_eq_true_eq]
  split
  · split
    · omega
    · congr 1
      omega
  · congr 1
    omega

end NumberLiteral

end PresenceTracker
