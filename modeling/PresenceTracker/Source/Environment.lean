import PresenceTracker.Source.Value
import PresenceTracker.Text

/-!
# Settings from the environment

Variables whose names begin with a prefix are settings. The rest of a name, in small letters,
is the path of the setting, with two underscores between the names. A value is taken for a
truth value, an integer or a floating point number if it reads as one, and for a text
otherwise.
-/

namespace PresenceTracker.Environment

/-- The start of the names of bindings that are settings, in small letters. -/
def namePrefix : String := "statushub__"

/-- The text between the names of a path. -/
def separator : String := "__"

/-- A text in small letters. Besides A to Z, only the sign for kelvins has one of the letters
a to z as its small form; no setting has a name with any other letter. -/
def fold (text : String) : String :=
  text.map fun c => if c = '\u212A' then 'k' else c.toLower

/-- Replaces every place of a part by another text, with a bound on their number. -/
def replaceWithin (part replacement : List Char) : Nat → List Char → List Char
  | 0, text => text
  | bound + 1, text =>
    match Text.splitFirst part text with
    | some (front, back) => front ++ replacement ++ replaceWithin part replacement bound back
    | none => text

/-- The path of a setting, given the rest of the variable's name. -/
def keyOf (name : List Char) : String :=
  String.ofList (replaceWithin separator.toList ['.'] name.length name)

/-- The value of a variable. -/
def valueOf (text : String) : SourceValue :=
  let folded := Text.fold text
  if folded = "true" then .truth true
  else if folded = "false" then .truth false
  else
    match Decimal.int? text.toList with
    | some value =>
      if Int64.minValue.toInt ≤ value ∧ value ≤ Int64.maxValue.toInt then .integer value
      else .float (.ofInt value)
    | none =>
      match Decimal.Float64.parse? text.toList with
      | some value => .float value
      | none => .text text

/-- The entry that a variable gives, if its name has the prefix. -/
def entry? (binding : String × String) : Option (String × SourceValue) :=
  let name := (fold binding.1).toList
  if namePrefix.toList.isPrefixOf name then
    some (keyOf (name.drop namePrefix.length), valueOf binding.2)
  else none

/-- The entries of an environment. Of bindings with the same path the last one counts. -/
def entries (bindings : List (String × String)) : List (String × SourceValue) :=
  bindings.filterMap entry?

end PresenceTracker.Environment
