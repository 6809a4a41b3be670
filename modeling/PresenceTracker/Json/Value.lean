import PresenceTracker.Json.Number
import PresenceTracker.Json.Reader
import PresenceTracker.Json.Writer

/-!
# Generic JSON values

A value of no particular shape: every string denotes a text, every number is in range,
at most 127 arrays and objects are nested, and of repeated keys the last one counts. It
is written with the keys of objects in ascending order.
-/

namespace PresenceTracker

/-- A JSON value of no particular shape. -/
inductive JsonValue where
  /-- The value `null`. -/
  | null
  /-- A truth value. -/
  | bool (value : Bool)
  /-- A number. -/
  | number (value : JsonNumber)
  /-- A text. -/
  | text (value : String)
  /-- An array. -/
  | array (items : List JsonValue)
  /-- An object; its keys in ascending order, each once. -/
  | object (members : List (String × JsonValue))
  deriving Repr

namespace JsonValue

/-- The most arrays and objects around a value. -/
def maxDepth : Nat := 127

/-- Puts a member into a list in ascending order of the keys; it replaces one of the same
key. -/
def insert (key : String) (value : JsonValue) :
    List (String × JsonValue) → List (String × JsonValue)
  | [] => [(key, value)]
  | (other, present) :: rest =>
    if key < other then (key, value) :: (other, present) :: rest
    else if key = other then (key, value) :: rest
    else (other, present) :: insert key value rest

mutual

/-- The value of a tree, with a bound on how deep arrays and objects are nested. -/
def ofJson (depth : Nat) : Json → Except Json.Fault JsonValue
  | .null => .ok .null
  | .bool value => .ok (.bool value)
  | .number literal =>
    match JsonNumber.ofLiteral? literal with
    | some found => .ok (.number found)
    | none => .error .outOfRange
  | .string none => .error .unsoundText
  | .string (some content) => .ok (.text content)
  | .array items =>
    match depth with
    | 0 => .error .tooDeep
    | depth + 1 => (ofItems depth items).map .array
  | .object members =>
    match depth with
    | 0 => .error .tooDeep
    | depth + 1 => (ofMembers depth [] members).map .object

/-- The values of the items of an array. -/
def ofItems (depth : Nat) : List Json → Except Json.Fault (List JsonValue)
  | [] => .ok []
  | item :: rest => do
    let item ← ofJson depth item
    let rest ← ofItems depth rest
    return item :: rest

/-- The members of an object, added to those read before. -/
def ofMembers (depth : Nat) (before : List (String × JsonValue)) :
    List (Option String × Json) → Except Json.Fault (List (String × JsonValue))
  | [] => .ok before
  | (none, _) :: _ => .error .unsoundText
  | (some key, value) :: rest => do
    let value ← ofJson depth value
    ofMembers depth (insert key value before) rest

end

mutual

/-- The JSON text of a value. -/
def write : JsonValue → Bytes
  | null => Json.writeNull
  | bool value => Json.writeBool value
  | number value => Bytes.ofText value.text
  | text value => Json.writeText value
  | array items => Json.writeArray (writeItems items)
  | object members => Json.writeObject (writeMembers members)

/-- The JSON texts of items. -/
def writeItems : List JsonValue → List Bytes
  | [] => []
  | item :: rest => write item :: writeItems rest

/-- The JSON texts of members, with their keys. -/
def writeMembers : List (String × JsonValue) → List (String × Bytes)
  | [] => []
  | (key, value) :: rest => (key, write value) :: writeMembers rest

end

/-- The value that a JSON text stands for. -/
def parse (input : Bytes) : Except Json.Fault JsonValue := do
  ofJson maxDepth (← Json.parse input)

end JsonValue

end PresenceTracker
