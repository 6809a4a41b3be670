import PresenceTracker.Decimal.Digits

/-!
# Commands to a server and its replies

A command is a name and arguments, which are byte strings. What a reply means depends on
what the command asks for: some replies stand for a text, some for bytes, some for several
texts, and any reply but a failure will do where only success matters. A server can be one that
follows a script: its replies are given beforehand, in order.
-/

namespace PresenceTracker.Redis

/-- A command. -/
structure Command where
  /-- The name. -/
  name : String
  /-- The arguments. -/
  arguments : List Bytes := []
  deriving DecidableEq, Repr

/-- A reply. -/
inductive Reply where
  /-- A short text, such as a confirmation. -/
  | simple (text : String)
  /-- The command failed. -/
  | failure (text : String)
  /-- An integer. -/
  | integer (value : Int)
  /-- A byte string. -/
  | bulk (bytes : Bytes)
  /-- Several byte strings. -/
  | list (items : List Bytes)
  /-- Nothing. -/
  | nil
  /-- There is no reply in time. -/
  | silence
  deriving DecidableEq, Repr

namespace Reply

/-- The text of a reply that is of no use. -/
def unsuitable : String := "the reply is of another type"

/-- Success is all that matters. -/
def asDone : Reply → Except String Unit
  | failure text => .error text
  | _ => .ok ()

/-- A text from bytes. -/
def textOf (bytes : Bytes) : Except String String :=
  match Bytes.text? bytes with
  | some text => .ok text
  | none => .error "the reply is no text"

/-- A text. -/
def asText : Reply → Except String String
  | simple text => .ok text
  | integer value => .ok (Decimal.intText value)
  | bulk bytes => textOf bytes
  | failure text => .error text
  | _ => .error unsuitable

/-- A byte written in decimal digits, perhaps behind a plus. -/
def byteOf (text : Bytes) : Except String UInt8 :=
  let digits := match text with
    | 43 :: rest => rest
    | _ => text
  let value := Decimal.toNat (Decimal.leading digits)
  if digits.isEmpty || !digits.all Decimal.isDigit || 255 < value then .error unsuitable
  else .ok (UInt8.ofNat value)

/-- Bytes, if there are any. Several byte strings stand for one byte each. -/
def asBytes : Reply → Except String (Option Bytes)
  | bulk bytes => .ok (some bytes)
  | list items => (items.mapM byteOf).map some
  | nil => .ok none
  | failure text => .error text
  | _ => .error unsuitable

/-- Several texts; a byte string counts as one. -/
def asTexts : Reply → Except String (List String)
  | bulk bytes => (textOf bytes).map fun text => [text]
  | list items => items.mapM textOf
  | nil => .ok []
  | failure text => .error text
  | _ => .error unsuitable

end Reply

/-- A server that follows a script and keeps the commands that were sent. -/
structure Script where
  /-- The replies that are left. -/
  replies : List Reply
  /-- The reply once the others have run out. -/
  otherwise : Command → Reply := fun _ => .nil
  /-- The commands sent so far. -/
  sent : List Command := []

/-- Sends a command to a server that follows a script. -/
def Script.send (command : Command) : StateM Script Reply := fun script =>
  let sent := script.sent ++ [command]
  match script.replies with
  | reply :: rest => (reply, { script with replies := rest, sent })
  | [] => (script.otherwise command, { script with sent })

end PresenceTracker.Redis
