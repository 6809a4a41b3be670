import PresenceTracker.Decimal.Parse
import PresenceTracker.Decimal.Shortest
import PresenceTracker.Settings.Tree
import PresenceTracker.Text

/-!
# Values of settings sources

Sources of settings (files and the environment) give trees of loosely typed values. Where a
setting wants another type, a value is converted: numbers and truth values can be written as
texts, texts that hold a number or one of a few words stand for what they say, and a fraction
is rounded where an integer is wanted.
-/

namespace PresenceTracker

/-- A value of a settings source. -/
inductive SourceValue where
  /-- The absence of a value. -/
  | nil
  /-- An integer of 64 bits, signed if it is negative. -/
  | integer (value : Int)
  /-- A floating point number. -/
  | float (value : Decimal.Float64)
  /-- A truth value. -/
  | truth (value : Bool)
  /-- A text. -/
  | text (value : String)
  /-- Several values. -/
  | list (items : List SourceValue)
  /-- Named values, each name once. -/
  | table (entries : List (String × SourceValue))
  deriving Repr

namespace SourceValue

open Decimal

/-- The text of a floating point number: positional, an integer without a point. -/
def floatText : Float64 → String
  | .finite negative magnitude =>
    (if negative then "-" else "") ++ magnitude.shortest.positional
  | .infinite negative => if negative then "-inf" else "inf"
  | .nan => "NaN"

/-- The unsigned 64-bit word nearest to a floating point number. -/
def floatWord : Float64 → Nat
  | .finite negative magnitude => if negative then 0 else min magnitude.round (UInt64.size - 1)
  | .infinite negative => if negative then 0 else UInt64.size - 1
  | .nan => 0

/-- Whether a floating point number is zero. -/
def floatIsZero : Float64 → Bool
  | .finite _ magnitude => magnitude.mantissa = 0
  | _ => false

/-- The words for a truth value. -/
def word? (text : String) : Option Bool :=
  let folded := Text.fold text
  if ["true", "on", "yes"].contains folded then some true
  else if ["false", "off", "no"].contains folded then some false
  else none

/-- The error of a value of the wrong type. -/
def mistyped (wanted : String) : String := "invalid type, expected " ++ wanted

/-- A value as a text. -/
def asText : SourceValue → Except String String
  | text value => .ok value
  | truth value => .ok (if value then "true" else "false")
  | integer value => .ok (intText value)
  | float value => .ok (floatText value)
  | _ => .error (mistyped "a string")

/-- A value as a truth value. -/
def asTruth : SourceValue → Except String Bool
  | truth value => .ok value
  | integer value => .ok (value ≠ 0)
  | float value => .ok (!floatIsZero value)
  | text value =>
    match word? value with
    | some found => .ok found
    | none =>
      if value = "1" then .ok true
      else if value = "0" then .ok false
      else .error (mistyped "a boolean")
  | _ => .error (mistyped "a boolean")

/-- A value as an unsigned 64-bit word. -/
def asWord (value : SourceValue) : Except String Nat :=
  let fit (found : Nat) : Except String Nat :=
    if found < UInt64.size then .ok found else .error (mistyped "an unsigned 64 bit integer")
  match value with
  | integer value =>
    if value < 0 then .error (mistyped "an unsigned 64 bit integer") else fit value.toNat
  | float value => .ok (floatWord value)
  | truth value => .ok (if value then 1 else 0)
  | text value =>
    match word? value with
    | some found => .ok (if found then 1 else 0)
    | none =>
      match nat? value.toList with
      | some found => fit found
      | none => .error (mistyped "an unsigned 64 bit integer")
  | _ => .error (mistyped "an unsigned 64 bit integer")

/-- A value as an unsigned 32-bit word. -/
def asHalfWord (value : SourceValue) : Except String Nat :=
  match value.asWord with
  | .error detail => .error detail
  | .ok found =>
    if found < UInt32.size then .ok found else .error (mistyped "an unsigned 32 bit integer")

/-- The values of known fields: of a table by name, of a list in order. -/
def fieldsOf (known : List String) : SourceValue → Except String (List (String × SourceValue))
  | table entries => .ok (entries.filter fun entry => known.contains entry.1)
  | list items => .ok (known.zip items)
  | _ => .error (mistyped "a table")

/-- A value as one of the values that have a name: the name, or a table with just that key. -/
def asChoice {α : Type} (ofName? : String → Option α) (value : SourceValue) :
    Except String α :=
  let named (name : String) : Except String α :=
    match ofName? name with
    | some found => .ok found
    | none => .error "unknown name"
  match value with
  | text name => named name
  | table [(name, _)] => named name
  | _ => .error (mistyped "a name")

instance : SettingsTree SourceValue where
  fields := fieldsOf
  text := asText
  truth := asTruth
  word64 value := value.asWord.map UInt64.ofNat
  word32 value := value.asHalfWord.map UInt32.ofNat
  choice := asChoice

end SourceValue

end PresenceTracker
