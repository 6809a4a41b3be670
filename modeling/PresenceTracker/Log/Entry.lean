import PresenceTracker.Json.Value

/-!
# Log entries

What the program reports about itself while it runs: how important it is, which part of the
program says it, and named values beside the message.
-/

namespace PresenceTracker

/-- How important an entry is. -/
inductive LogLevel where
  /-- Something failed. -/
  | error
  /-- Something may be wrong. -/
  | warn
  /-- What the program does. -/
  | info
  /-- How it does it. -/
  | debug
  /-- Every step. -/
  | trace
  deriving DecidableEq, Repr

namespace LogLevel

/-- Every level, the most important one first. -/
def all : List LogLevel := [error, warn, info, debug, trace]

/-- The name in capital letters. -/
def label : LogLevel → String
  | error => "ERROR"
  | warn => "WARN"
  | info => "INFO"
  | debug => "DEBUG"
  | trace => "TRACE"

/-- How many levels are at least as important. -/
def rank : LogLevel → Nat
  | error => 1
  | warn => 2
  | info => 3
  | debug => 4
  | trace => 5

end LogLevel

/-- An entry of the log. -/
structure LogEntry where
  /-- How important it is. -/
  level : LogLevel
  /-- The part of the program that says it. -/
  target : String
  /-- The message. -/
  message : String
  /-- Values beside the message. -/
  values : List (String × JsonValue) := []

namespace LogEntry

/-- The message and the values beside it, by name. -/
def fields (entry : LogEntry) : List (String × JsonValue) :=
  ("message", .text entry.message) :: entry.values

/-- An entry as a line of JSON text. -/
def jsonLine (entry : LogEntry) : String :=
  Json.text <| Json.writeObject [
    ("level", Json.writeText entry.level.label),
    ("fields", Json.writeObject (JsonValue.writeMembers entry.fields)),
    ("target", Json.writeText entry.target)]

/-- The text of a value beside a message. -/
def valueText : JsonValue → String
  | .text value => value
  | value => Json.text value.write

/-- An entry as a line for people. -/
def plainLine (entry : LogEntry) : String :=
  "  " ++ entry.level.label ++ " " ++ entry.target ++ ": " ++
    ", ".intercalate (entry.message :: entry.values.map fun (name, value) =>
      name ++ ": " ++ valueText value)

end LogEntry

end PresenceTracker
