import PresenceTracker.Failure
import PresenceTracker.Text

/-!
# Presence states

The five states a user can be in, their written names, and the byte that stands
for a state in the compact encoding of a record.
-/

namespace PresenceTracker

/-- The presence state of a user. -/
inductive Status where
  /-- Connected and active. -/
  | online
  /-- Connected but idle, or away by choice. -/
  | away
  /-- Not connected. -/
  | offline
  /-- Not to be disturbed. -/
  | dnd
  /-- Out of office. -/
  | outOfOffice
  deriving DecidableEq, Repr

namespace Status

/-- Every state, in declaration order. -/
def all : List Status := [online, away, offline, dnd, outOfOffice]

/-- The written name of a state. -/
def name : Status → String
  | online => "online"
  | away => "away"
  | offline => "offline"
  | dnd => "dnd"
  | outOfOffice => "ooo"

/-- The state with exactly this written name. -/
def ofName? (text : String) : Option Status := all.find? fun status => status.name == text

/-- A state is read back from its name. -/
theorem ofName?_name (status : Status) : ofName? status.name = some status := by
  cases status <;> rfl

/-- The byte that stands for a state. -/
def code : Status → UInt8
  | online => 1
  | away => 2
  | offline => 3
  | dnd => 4
  | outOfOffice => 5

/-- The state that a byte stands for. -/
def ofCode? (byte : UInt8) : Option Status := all.find? fun status => status.code == byte

/-- A state is read back from its code. -/
theorem ofCode?_code (status : Status) : ofCode? status.code = some status := by
  cases status <;> rfl

/-- A byte that is read as a state is the code of that state. -/
theorem code_of_ofCode? {byte : UInt8} {status : Status} (h : ofCode? byte = some status) :
    status.code = byte := by
  simpa using List.find?_some h

/-- The text that refuses a name. -/
def unknownNameText (text : String) : String :=
  "Invalid user status: '" ++ text ++ "'. Expected one of: online, away, offline, dnd, ooo"

/-- The state a caller names, in letters of either case; out of office also has a
long name. No character outside ASCII becomes one of the letters of these names when it is
made small, so folding A to Z decides the same names as the full letter map does. -/
def parse (text : String) : Except Failure Status :=
  if Text.fold text = "out_of_office" then .ok outOfOffice
  else match ofName? (Text.fold text) with
    | some status => .ok status
    | none => .error (.plain .validation (unknownNameText text))

/-- The names of states are in small letters. -/
theorem fold_name (status : Status) : Text.fold status.name = status.name := by
  cases status <;> decide +kernel

/-- The long name is no written name. -/
theorem name_ne_long (status : Status) : status.name ≠ "out_of_office" := by
  cases status <;> decide

/-- A state is read back from its name where several spellings are accepted. -/
theorem parse_name (status : Status) : parse status.name = .ok status := by
  rw [parse, fold_name, if_neg status.name_ne_long, ofName?_name]

end Status

end PresenceTracker
