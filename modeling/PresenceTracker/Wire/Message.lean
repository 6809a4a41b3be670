import PresenceTracker.Json.Value
import PresenceTracker.Wire.Record

/-!
# Messages between nodes as JSON

An event is an object of its kind and its payload, a message an object of the node it
came from and the event. Readers take the two keys of an event in any order. A payload in
front of its kind is set aside until the kind is known, so all of it has to be a sound
generic value.
-/

namespace PresenceTracker.Wire

open Json

/-- A topic as JSON. -/
def writeTopic (topic : Topic) : Bytes := writeText topic.name

/-- A topic from JSON. -/
def readTopic (setAside : Bool) (json : Json) : Except Fault Topic :=
  asName setAside Topic.ofName? json

/-- The kind of an event as JSON. -/
def writeKind (kind : EventKind) : Bytes := writeText kind.name

/-- The kind of an event from JSON. -/
def readKind (json : Json) : Except Fault EventKind := asName false EventKind.ofName? json

/-- The kind of a failure as JSON. -/
def writeFailureKind (kind : FailureKind) : Bytes := writeText kind.wireName

/-- The kind of a failure from JSON. -/
def readFailureKind (json : Json) : Except Fault FailureKind :=
  asName false (fun name => FailureKind.all.find? fun kind => kind.wireName == name) json

/-- The payload of an event as JSON. -/
def writePayload : Event → Bytes
  | .updateStatus record => writeRecord record
  | .presenceChanged presence => writePresence presence
  | .invalidateCache topic key =>
    writeObject [("topic", writeTopic topic), ("key", writeOption writeText key)]

/-- An event as JSON. -/
def writeEvent (event : Event) : Bytes :=
  writeObject [("kind", writeKind event.kind), ("payload", writePayload event)]

/-- The payload of an invalidation, which has to be an object. -/
def readInvalidation (setAside : Bool) (json : Json) : Except Fault Event :=
  match json with
  | .object _ => do
    let fields ← fields ["topic", "key"] json
    let topic ← fields.required "topic" (readTopic setAside)
    let key ← fields.optional "key" asText
    return .invalidateCache topic key
  | _ => .error (.mismatch "an object")

/-- The event of a kind with a payload. -/
def readPayload (setAside : Bool) (kind : EventKind) (json : Json) : Except Fault Event :=
  match kind with
  | .updateStatus => (readRecord setAside json).map .updateStatus
  | .presenceChanged => (readPresence setAside json).map .presenceChanged
  | .invalidateCache => readInvalidation setAside json

/-- An event from JSON, inside of a number of open arrays and objects. -/
def readEvent (opened : Nat) (json : Json) : Except Fault Event := do
  match json with
  | .array [kind, payload] => readPayload false (← readKind kind) payload
  | .object _ =>
    let fields ← fields ["kind", "payload"] json
    match fields.entries with
    | [("kind", kind), ("payload", payload)] => readPayload false (← readKind kind) payload
    | [("payload", payload), ("kind", kind)] =>
      let _ ← JsonValue.ofJson (JsonValue.maxDepth - opened - 1) payload
      readPayload true (← readKind kind) payload
    | _ => throw (.missing "kind or payload")
  | _ => throw (.mismatch "an event")

/-- A node as JSON. -/
def writeNode (node : NodeId) : Bytes := writeText node.text

/-- A node from JSON. -/
def readNode (json : Json) : Except Fault NodeId := do
  match NodeId.parse? (← asText json) with
  | some node => return node
  | none => throw (.mismatch "a node identifier")

/-- A message as JSON. -/
def writeMessage (message : Message) : Bytes :=
  writeObject [("origin", writeNode message.origin), ("event", writeEvent message.event)]

/-- A message from JSON. -/
def readMessage (json : Json) : Except Fault Message := do
  let fields ← fields ["origin", "event"] json
  let origin ← fields.required "origin" readNode
  let event ← fields.required "event" (readEvent 1)
  return { origin, event }

/-- Reads bytes of JSON text as a value of a known shape. -/
def parse {α : Type} (read : Json → Except Fault α) (input : Bytes) : Except Failure α :=
  match Json.parse input with
  | .error fault => .error fault.failure
  | .ok json =>
    match read json with
    | .ok value => .ok value
    | .error fault => .error fault.failure

end PresenceTracker.Wire
