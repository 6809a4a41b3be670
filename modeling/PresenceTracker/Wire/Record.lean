import PresenceTracker.Json.Shape
import PresenceTracker.Json.Writer
import PresenceTracker.Event

/-!
# Records and presence events as JSON

A record is written with all its fields in their order, an absent one as `null`. A
presence event leaves out an absent deadline. Readers take the fields in any order and
ignore unknown ones.
-/

namespace PresenceTracker.Wire

open Json

/-- A time as JSON. -/
def writeMoment (moment : Moment) : Bytes := writeInt moment.toInt

/-- A state as JSON. -/
def writeStatus (status : Status) : Bytes := writeText status.name

/-- A state from JSON. -/
def readStatus (setAside : Bool) (json : Json) : Except Fault Status :=
  asName setAside Status.ofName? json

/-- The names of the fields of a record, in order. -/
def recordFields : List String :=
  ["user_id", "status", "manual", "last_activity_at", "active_channel", "previous_status",
    "dnd_end_time"]

/-- A record as JSON. -/
def writeRecord (record : Record) : Bytes :=
  writeObject [
    ("user_id", writeText record.userId),
    ("status", writeStatus record.status),
    ("manual", writeBool record.manual),
    ("last_activity_at", writeMoment record.lastActivity),
    ("active_channel", writeOption writeText record.channel),
    ("previous_status", writeOption writeStatus record.restoreTo),
    ("dnd_end_time", writeOption writeMoment record.deadline)]

/-- A record from JSON. -/
def readRecord (setAside : Bool) (json : Json) : Except Fault Record := do
  let fields ← fields recordFields json
  let userId ← fields.required "user_id" asText
  let status ← fields.required "status" (readStatus setAside)
  let manual ← fields.required "manual" asBool
  let lastActivity ← fields.required "last_activity_at" asMoment
  let channel ← fields.optional "active_channel" asText
  let restoreTo ← fields.optional "previous_status" (readStatus setAside)
  let deadline ← fields.optional "dnd_end_time" asMoment
  return { userId, status, manual, lastActivity, channel, restoreTo, deadline }

/-- The names of the fields of a presence event, in order. -/
def presenceFields : List String :=
  ["user_id", "status", "manual", "last_activity_at", "dnd_end_time"]

/-- A presence event as JSON. -/
def writePresence (presence : PresenceEvent) : Bytes :=
  writeObject ([
    ("user_id", writeText presence.userId),
    ("status", writeStatus presence.status),
    ("manual", writeBool presence.manual),
    ("last_activity_at", writeMoment presence.lastActivity)] ++
    match presence.deadline with
    | some deadline => [("dnd_end_time", writeMoment deadline)]
    | none => [])

/-- A presence event from JSON. -/
def readPresence (setAside : Bool) (json : Json) : Except Fault PresenceEvent := do
  let fields ← fields presenceFields json
  let userId ← fields.required "user_id" asText
  let status ← fields.required "status" (readStatus setAside)
  let manual ← fields.required "manual" asBool
  let lastActivity ← fields.required "last_activity_at" asMoment
  let deadline ← fields.orElse "dnd_end_time" none (asOption asMoment)
  return { userId, status, manual, lastActivity, deadline }

end PresenceTracker.Wire
