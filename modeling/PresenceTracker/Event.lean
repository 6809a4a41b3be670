import PresenceTracker.Record
import PresenceTracker.Topic
import PresenceTracker.NodeId

/-!
# Events between nodes and to clients

A visible change of a record is shown to connected clients as a presence event. The
nodes of a cluster tell each other about changed records, presence events and
entries to drop. A message is an event together with the node it came from.
-/

namespace PresenceTracker

/-- What connected clients see of a record. -/
structure PresenceEvent where
  /-- The user. -/
  userId : String
  /-- The presence state. -/
  status : Status
  /-- Whether the state was chosen and not inferred. -/
  manual : Bool
  /-- The last known activity. -/
  lastActivity : Moment
  /-- The deadline of a do-not-disturb. -/
  deadline : Option Moment := none
  deriving DecidableEq, Repr

/-- What connected clients see of this record. -/
def Record.presence (record : Record) : PresenceEvent :=
  ⟨record.userId, record.status, record.manual, record.lastActivity, record.deadline⟩

/-- What one node tells the others. -/
inductive Event where
  /-- A record changed; nodes with a cache of their own store it. -/
  | updateStatus (record : Record)
  /-- A change that every node shows to its own clients. -/
  | presenceChanged (presence : PresenceEvent)
  /-- Drop one key, or without a key everything, from every cache of a topic. -/
  | invalidateCache (topic : Topic) (key : Option String)
  deriving DecidableEq, Repr

/-- The kinds of events, by which handlers are chosen. -/
inductive EventKind where
  /-- The kind of `Event.updateStatus`. -/
  | updateStatus
  /-- The kind of `Event.presenceChanged`. -/
  | presenceChanged
  /-- The kind of `Event.invalidateCache`. -/
  | invalidateCache
  deriving DecidableEq, Repr

namespace EventKind

/-- Every kind, in declaration order. -/
def all : List EventKind := [updateStatus, presenceChanged, invalidateCache]

/-- The written name of a kind. -/
def name : EventKind → String
  | updateStatus => "update_status"
  | presenceChanged => "presence_changed"
  | invalidateCache => "invalidate_cache"

/-- The kind with exactly this written name. -/
def ofName? (text : String) : Option EventKind := all.find? fun kind => kind.name == text

theorem ofName?_name (kind : EventKind) : ofName? kind.name = some kind := by
  cases kind <;> rfl

end EventKind

/-- The kind of an event. -/
def Event.kind : Event → EventKind
  | updateStatus _ => .updateStatus
  | presenceChanged _ => .presenceChanged
  | invalidateCache _ _ => .invalidateCache

/-- An event on its way between nodes. -/
structure Message where
  /-- The node that published the event; it is never delivered back. -/
  origin : NodeId
  /-- The event. -/
  event : Event
  deriving DecidableEq

end PresenceTracker
