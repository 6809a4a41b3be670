import PresenceTracker.Json.Value
import PresenceTracker.Time

/-!
# Looking into generic JSON values

The members of an object and the scalars among them. What is absent or of another kind
gives nothing, or a value for its absence.
-/

namespace PresenceTracker.JsonValue

/-- A member of an object. -/
def member? (value : JsonValue) (name : String) : Option JsonValue :=
  match value with
  | object members => members.lookup name
  | _ => none

/-- Whether an object has a member. -/
def has (value : JsonValue) (name : String) : Bool := (value.member? name).isSome

/-- A member of an object, or `null`. -/
def field (value : JsonValue) (name : String) : JsonValue := (value.member? name).getD null

/-- A value as a text; the empty text for others. -/
def asText : JsonValue → String
  | text value => value
  | _ => ""

/-- A value as an integer; zero for others. -/
def asInt : JsonValue → Int
  | number (.integer value) => value
  | _ => 0

/-- The items of an array; none for other values. -/
def items : JsonValue → List JsonValue
  | array items => items
  | _ => []

/-- A member that is a text. -/
def text? (value : JsonValue) (name : String) : Option String :=
  match value.field name with
  | text content => some content
  | _ => none

/-- A member as a text; the empty text for others. -/
def textAt (value : JsonValue) (name : String) : String := (value.text? name).getD ""

/-- Whether a member is true. -/
def isTrue (value : JsonValue) (name : String) : Bool :=
  match value.field name with
  | bool truth => truth
  | _ => false

/-- A member as an integer; zero for others. -/
def intAt (value : JsonValue) (name : String) : Int := (value.field name).asInt

/-- A member as a time. -/
def momentAt (value : JsonValue) (name : String) : Moment := Int64.ofInt (value.intAt name)

/-- A member as a natural number, or a value for its absence. -/
def natOr (value : JsonValue) (name : String) (other : Nat) : Nat :=
  match value.field name with
  | number (.integer found) => found.toNat
  | _ => other

/-- The items of a member. -/
def itemsAt (value : JsonValue) (name : String) : List JsonValue := (value.field name).items

/-- The items of a member as texts. -/
def textsAt (value : JsonValue) (name : String) : List String := (value.itemsAt name).map asText

/-- The value of a written JSON text. -/
def ofWritten (written : Bytes) : JsonValue := (parse written).toOption.getD null

end PresenceTracker.JsonValue
