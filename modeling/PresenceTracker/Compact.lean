import PresenceTracker.Bytes
import PresenceTracker.Record

/-!
# The compact encoding of a record

Records are read on every query for a presence, so caches keep them in a binary form
of their own. All numbers are big-endian:

    version, state, flags           one byte each
    last activity                   8 bytes
    user                            2 bytes of length, then the UTF-8 form
    channel                         2 bytes of length, then the UTF-8 form; if flagged
    state after the deadline        1 byte; if flagged
    deadline                        8 bytes; if flagged

A record whose user or channel is longer than 65535 bytes has no such form. A reader
takes the fields from the front one after the other, never looks past the end, and
refuses a byte string with anything left over.
-/

namespace PresenceTracker.Compact

/-- Why a byte string is no compact encoding. -/
inductive Fault where
  /-- The bytes end too early. -/
  | truncated
  /-- The version is another one. -/
  | version (found : UInt8)
  /-- A byte stands for no state. -/
  | statusCode (found : UInt8)
  /-- A text is no UTF-8. -/
  | notText
  /-- Something follows the record. -/
  | trailing
  deriving DecidableEq, Repr

/-- What a fault is reported as. -/
def Fault.failure : Fault → Failure
  | truncated => .plain .serialization "Truncated status encoding"
  | version found =>
    .plain .serialization ("Unsupported status encoding version " ++ toString found.toNat)
  | statusCode found => .plain .serialization ("Unknown status code " ++ toString found.toNat)
  | notText => .around .serialization "Invalid UTF-8 in status encoding"
  | trailing => .plain .serialization "Trailing bytes in status encoding"

/-- The version written and read. -/
def currentVersion : UInt8 := 1

/-- The flag of a chosen state. -/
def manualFlag : UInt8 := 1

/-- The flag of a channel. -/
def channelFlag : UInt8 := 2

/-- The flag of a state after the deadline. -/
def restoreFlag : UInt8 := 4

/-- The flag of a deadline. -/
def deadlineFlag : UInt8 := 8

/-- The most bytes a text may have. -/
def maxTextBytes : Nat := 65535

/-- Whether a text is short enough. -/
def fits (text : String) : Bool := text.utf8ByteSize ≤ maxTextBytes

/-- The flags of a record. -/
def flags (record : Record) : UInt8 :=
  (if record.manual then manualFlag else 0) |||
  (if record.channel.isSome then channelFlag else 0) |||
  (if record.restoreTo.isSome then restoreFlag else 0) |||
  (if record.deadline.isSome then deadlineFlag else 0)

/-- A time in eight bytes. -/
def encodeMoment (moment : Moment) : Bytes := Bytes.bigEndian 8 moment.toUInt64.toNat

/-- A text behind its length in two bytes. -/
def encodeText (text : String) : Bytes :=
  Bytes.bigEndian 2 text.utf8ByteSize ++ Bytes.ofText text

/-- A field that is there or not. -/
def encodeOption {α : Type} (encode : α → Bytes) : Option α → Bytes
  | none => []
  | some value => encode value

/-- The compact encoding of a record whose texts are short enough. -/
def encode? (record : Record) : Option Bytes :=
  if fits record.userId && record.channel.all fits then
    some ([currentVersion, record.status.code, flags record] ++ encodeMoment record.lastActivity ++
      encodeText record.userId ++ encodeOption encodeText record.channel ++
      encodeOption (fun status => [status.code]) record.restoreTo ++
      encodeOption encodeMoment record.deadline)
  else none

/-- Takes a number of bytes from the front. -/
def take (count : Nat) (bytes : Bytes) : Except Fault (Bytes × Bytes) :=
  if bytes.length < count then .error .truncated else .ok (bytes.splitAt count)

/-- Takes one byte from the front. -/
def takeByte : Bytes → Except Fault (UInt8 × Bytes)
  | [] => .error .truncated
  | byte :: rest => .ok (byte, rest)

/-- Takes a state from the front. -/
def takeStatus (bytes : Bytes) : Except Fault (Status × Bytes) := do
  let (byte, rest) ← takeByte bytes
  match Status.ofCode? byte with
  | some status => return (status, rest)
  | none => throw (.statusCode byte)

/-- Takes a time from the front. -/
def takeMoment (bytes : Bytes) : Except Fault (Moment × Bytes) := do
  let (word, rest) ← take 8 bytes
  return ((UInt64.ofNat (Bytes.toNat word)).toInt64, rest)

/-- Takes a text behind its length from the front. -/
def takeText (bytes : Bytes) : Except Fault (String × Bytes) := do
  let (size, rest) ← take 2 bytes
  let (raw, rest) ← take (Bytes.toNat size) rest
  match Bytes.text? raw with
  | some text => return (text, rest)
  | none => throw .notText

/-- Takes a field from the front if it is flagged. -/
def takeIf {α : Type} (flagged : Bool) (takeValue : Bytes → Except Fault (α × Bytes))
    (bytes : Bytes) : Except Fault (Option α × Bytes) :=
  if flagged then do
    let (value, rest) ← takeValue bytes
    return (some value, rest)
  else return (none, bytes)

/-- Whether a flag is set among others. The upper four bits have no meaning. -/
def isSet (flag flags : UInt8) : Bool := flags &&& flag ≠ 0

/-- The fewest bytes of the fields of fixed width. -/
def fixedBytes : Nat := 11

/-- The record that a byte string is the compact encoding of. -/
def decode (bytes : Bytes) : Except Fault Record := do
  if bytes.length < fixedBytes then throw .truncated
  let (version, bytes) ← takeByte bytes
  if version ≠ currentVersion then throw (.version version)
  let (status, bytes) ← takeStatus bytes
  let (flags, bytes) ← takeByte bytes
  let (lastActivity, bytes) ← takeMoment bytes
  let (userId, bytes) ← takeText bytes
  let (channel, bytes) ← takeIf (isSet channelFlag flags) takeText bytes
  let (restoreTo, bytes) ← takeIf (isSet restoreFlag flags) takeStatus bytes
  let (deadline, bytes) ← takeIf (isSet deadlineFlag flags) takeMoment bytes
  if !bytes.isEmpty then throw .trailing
  return {
    userId, status, lastActivity, channel, restoreTo, deadline
    manual := isSet manualFlag flags }

end PresenceTracker.Compact
