import PresenceTracker.Decimal.Digits
import PresenceTracker.Record

/-!
# Calls to a store

What a store of records can be asked, the sorts of calls that fail together, and what calls to a
store on a database give while no query gets through. A record is checked before it is sent, and a
read of no rows at all needs no query; every other call fails as its query fails.
-/

namespace PresenceTracker

/-- A call to the store. -/
inductive StoreCall where
  /-- Reads one row. -/
  | get (user : String)
  /-- Reads several rows. -/
  | getMany (users : List String)
  /-- Writes a whole row. -/
  | save (record : Record)
  /-- Sets the last activity of a row. -/
  | touch (user : String) (moment : Moment)
  /-- Turns the rows whose deadline has passed. -/
  | sweep (now : Moment)
  /-- Deletes a row. -/
  | delete (user : String)
  deriving DecidableEq, Repr

/-- The calls to the store that can be made to fail together. -/
inductive StoreMethod where
  /-- Reads of one row. -/
  | get
  /-- Reads of several rows. -/
  | getMany
  /-- Full writes. -/
  | save
  /-- Writes of the activity. -/
  | touch
  /-- Sweeps. -/
  | sweep
  /-- Deletions. -/
  | delete
  deriving DecidableEq, Repr

namespace StoreMethod

/-- Every method. -/
def all : List StoreMethod := [get, getMany, save, touch, sweep, delete]

/-- The name in a list of calls. -/
def name : StoreMethod → String
  | get => "get"
  | getMany => "get_by_ids"
  | save => "save"
  | touch => "touch"
  | sweep => "sweep"
  | delete => "delete"

/-- The method with a name. -/
def ofName? (text : String) : Option StoreMethod := all.find? fun method => method.name == text

theorem ofName?_name (method : StoreMethod) : ofName? method.name = some method := by
  cases method <;> rfl

end StoreMethod

/-- The method of a call to the store. -/
def StoreCall.method : StoreCall → StoreMethod
  | get _ => .get
  | getMany _ => .getMany
  | save _ => .save
  | touch _ _ => .touch
  | sweep _ => .sweep
  | delete _ => .delete

/-- What a call is about, as a text. -/
def StoreCall.subject : StoreCall → String
  | get user => user
  | getMany users => ",".intercalate users
  | save record => record.userId
  | touch user moment => user ++ " " ++ Decimal.intText moment.toInt
  | sweep now => Decimal.intText now.toInt
  | delete user => user

/-- A call as a line in a list of calls. -/
def StoreCall.text (call : StoreCall) : String := call.method.name ++ " " ++ call.subject

namespace Database

/-- What a failing query is reported as. -/
def queryFailure (method : StoreMethod) : Failure :=
  .around .database <|
    match method with
    | .get => "Failed to find status"
    | .getMany => "Failed to find statuses by IDs"
    | .save => "Failed to save status"
    | .touch => "Failed to update last activity"
    | .sweep => "Failed to expire DND statuses"
    | .delete => "Failed to delete status"

/-- The rows that a call gives while no query gets through. -/
def unreachable (call : StoreCall) : Except Failure (List Record) :=
  match call with
  | .getMany [] => .ok []
  | .save record =>
    match record.validate with
    | .error failure => .error failure
    | .ok () => .error (queryFailure call.method)
  | _ => .error (queryFailure call.method)

/-- The schema cannot be brought up to date. -/
def migrationFailure (detail : String) : Failure :=
  .around .database ("Failed to run migrations: " ++ detail)

/-- There is no connection. -/
def connectionFailure (detail : String) : Failure :=
  .around .database ("Failed to connect to database: " ++ detail)

end Database

end PresenceTracker
