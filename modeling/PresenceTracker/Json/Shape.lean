import PresenceTracker.Json.Basic
import PresenceTracker.Time

/-!
# Reading values of a known shape

A structure is read from an object, whose unknown members are ignored, or from an array
of its fields in order. A known member may not be repeated. A choice among plain names is
read from a string, or from an object whose only key is the name and whose value is
`null`.
-/

namespace PresenceTracker.Json

/-- A text. -/
def asText : Json → Except Fault String
  | .string (some text) => .ok text
  | .string none => .error .unsoundText
  | _ => .error (.mismatch "a string")

/-- A truth value. -/
def asBool : Json → Except Fault Bool
  | .bool value => .ok value
  | _ => .error (.mismatch "a boolean")

/-- An integer from a range. -/
def asInt (low high : Int) : Json → Except Fault Int
  | .number literal =>
    match literal.integer? with
    | some value => if low ≤ value ∧ value ≤ high then .ok value else .error .outOfRange
    | none => .error (.mismatch "an integer")
  | _ => .error (.mismatch "an integer")

/-- A time. -/
def asMoment (json : Json) : Except Fault Moment :=
  (asInt Int64.minValue.toInt Int64.maxValue.toInt json).map Int64.ofInt

/-- An unsigned word of 64 bits. -/
def asWord64 (json : Json) : Except Fault UInt64 :=
  (asInt 0 (UInt64.size - 1) json).map fun value => UInt64.ofNat value.toNat

/-- An unsigned word of 32 bits. -/
def asWord32 (json : Json) : Except Fault UInt32 :=
  (asInt 0 (UInt32.size - 1) json).map fun value => UInt32.ofNat value.toNat

/-- A value, or `null` for its absence. -/
def asOption {α : Type} (read : Json → Except Fault α) : Json → Except Fault (Option α)
  | .null => .ok none
  | json => (read json).map some

/-- What stands behind the name of a choice that carries nothing. In a value that was set
aside before its shape was known, an empty object is as good as `null`. -/
def isNothing (setAside : Bool) : Json → Bool
  | .null => true
  | .object [] => setAside
  | _ => false

/-- A choice among plain names. -/
def asName {α : Type} (setAside : Bool) (ofName? : String → Option α) : Json → Except Fault α
  | .string none => .error .unsoundText
  | .string (some name) =>
    match ofName? name with
    | some value => .ok value
    | none => .error (.mismatch "a known name")
  | .object [(some name, inner)] =>
    match ofName? name with
    | some value =>
      if isNothing setAside inner then .ok value else .error (.mismatch "nothing behind a name")
    | none => .error (.mismatch "a known name")
  | _ => .error (.mismatch "a name")

/-- The known fields found in a structure. -/
structure Fields where
  /-- Whether they were found by name, and not by position. -/
  named : Bool
  /-- The fields found. -/
  entries : List (String × Json)

/-- The known members of an object in order, added to those found before in reverse. -/
def collect (known : List String) (found : List (String × Json)) :
    List (Option String × Json) → Except Fault (List (String × Json))
  | [] => .ok found.reverse
  | (none, _) :: _ => .error .unsoundText
  | (some key, value) :: rest =>
    if known.contains key then
      if found.any fun entry => entry.1 == key then .error (.repeated key)
      else collect known ((key, value) :: found) rest
    else collect known found rest

/-- The fields of a structure with these field names. -/
def fields (known : List String) : Json → Except Fault Fields
  | .array items =>
    if items.length ≤ known.length then .ok ⟨false, known.zip items⟩
    else .error (.mismatch "fewer items")
  | .object members => (collect known [] members).map (⟨true, ·⟩)
  | _ => .error (.mismatch "a structure")

namespace Fields

/-- The value of a field, if it is there. -/
def find? (fields : Fields) (name : String) : Option Json := fields.entries.lookup name

/-- A field that has to be there. -/
def required {α : Type} (fields : Fields) (name : String) (read : Json → Except Fault α) :
    Except Fault α :=
  match fields.find? name with
  | some json => read json
  | none => .error (.missing name)

/-- A field that may be absent by name, but not by position. -/
def optional {α : Type} (fields : Fields) (name : String) (read : Json → Except Fault α) :
    Except Fault (Option α) :=
  match fields.find? name with
  | some json => asOption read json
  | none => if fields.named then .ok none else .error (.missing name)

/-- A field with a value for its absence. -/
def orElse {α : Type} (fields : Fields) (name : String) (absent : α)
    (read : Json → Except Fault α) : Except Fault α :=
  match fields.find? name with
  | some json => read json
  | none => .ok absent

end Fields

end PresenceTracker.Json
