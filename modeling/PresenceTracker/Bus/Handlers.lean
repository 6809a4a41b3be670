import PresenceTracker.Event

/-!
# Handlers of events

A node registers handlers for kinds of events. An event of another node is handed to every
handler of its kind, in the order in which they were registered; one that fails does not
keep the event from the others. A node's own events are dropped.
-/

namespace PresenceTracker

/-- A handler of events. -/
structure Handler where
  /-- The name. -/
  name : String
  /-- Whether it reports a failure for an event. -/
  fails : Event → Bool

/-- One call of a handler. -/
structure HandlerCall where
  /-- The name of the handler. -/
  handler : String
  /-- The event. -/
  event : Event
  /-- Whether the handler reported a failure. -/
  failed : Bool
  deriving DecidableEq

/-- Calls a handler. -/
def Handler.call (handler : Handler) (event : Event) : HandlerCall :=
  ⟨handler.name, event, handler.fails event⟩

/-- The handlers of a node, each with its kind, in the order of their registration. -/
abbrev HandlerTable := List (EventKind × Handler)

namespace HandlerTable

/-- Adds a handler for a kind of events. -/
def register (table : HandlerTable) (kind : EventKind) (handler : Handler) : HandlerTable :=
  table ++ [(kind, handler)]

/-- The handlers of a kind, in the order of their registration. -/
def ofKind (table : HandlerTable) (kind : EventKind) : List Handler :=
  (table.filter fun entry => entry.1 = kind).map Prod.snd

/-- Hands an event that came from some node to the handlers of the node `self`. -/
def dispatch {ι : Type} [DecidableEq ι] (table : HandlerTable) (self origin : ι) (event : Event) :
    List HandlerCall :=
  if origin = self then [] else (table.ofKind event.kind).map fun handler => handler.call event

end HandlerTable

end PresenceTracker
