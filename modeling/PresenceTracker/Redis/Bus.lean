import PresenceTracker.Bus.Handlers
import PresenceTracker.Redis.Reply
import PresenceTracker.Time
import PresenceTracker.Wire.Message

/-!
# A transport over a server

Nodes talk through one channel of a server, which hands every payload to every subscriber,
the publisher included. A payload is the JSON text of a message; payloads that are no text
or no message are skipped, and so are a node's own messages. A node that loses its
subscription asks for it again after a second, and again a second after each refusal.
-/

namespace PresenceTracker

/-- Whether the listener of a node is subscribed. -/
inductive Subscription where
  /-- The server hands over what is published. -/
  | active
  /-- The server has not answered. -/
  | asking
  /-- There is no subscription; the time until the next attempt. -/
  | lost (remaining : Duration)
  /-- The node has left. -/
  | ended
  deriving DecidableEq, Repr

/-- One node of the transport. -/
structure RedisBus where
  /-- The identifier of the node. -/
  node : NodeId
  /-- The channel. -/
  channel : String
  /-- The handlers. -/
  handlers : HandlerTable := []
  /-- Whether the listener is subscribed. -/
  subscription : Subscription := .asking

namespace RedisBus

open Redis

/-- The address of a server that the client cannot make sense of. -/
def badAddress : Failure := .around .cluster "Failed to create Redis client"

/-- How long a node waits before it asks for a lost subscription again. -/
def retryDelay : Duration := Duration.ofSeconds 1

/-- Whether the node is subscribed. -/
def isSubscribed (bus : RedisBus) : Bool := bus.subscription = .active

/-- The subscription after a reply to the request for it. -/
def afterReply : Reply → Subscription
  | .failure _ => .lost retryDelay
  | .silence => .asking
  | _ => .active

variable {m : Type → Type} [Monad m] (send : Command → m Reply) (bus : RedisBus)

/-- Asks for the subscription. -/
def ask : m RedisBus := do
  let reply ← send ⟨"SUBSCRIBE", [Bytes.ofText bus.channel]⟩
  return { bus with subscription := afterReply reply }

/-- Joins the transport as a node. -/
def connect (node : NodeId) (channel : String) : m RedisBus := ask send { node, channel }

/-- The payload of an event. -/
def payload (event : Event) : Bytes := Wire.writeMessage ⟨bus.node, event⟩

/-- Publishes an event; a failure changes nothing. -/
def publish (event : Event) : m Unit := do
  match bus.subscription with
  | .ended => pure ()
  | _ => let _ ← send ⟨"PUBLISH", [Bytes.ofText bus.channel, bus.payload event]⟩

/-- Lets time pass. A bound on the number of attempts is given. -/
def waitWithin : Nat → RedisBus → Duration → m RedisBus
  | 0, bus, _ => return bus
  | bound + 1, bus, time =>
    match bus.subscription with
    | .lost remaining =>
      if remaining ≤ time then do
        waitWithin bound (← ask send bus) (time - remaining)
      else return { bus with subscription := .lost (remaining - time) }
    | _ => return bus

/-- Lets time pass, in which a lost subscription is asked for as often as it is due. -/
def wait (time : Duration) : m RedisBus := waitWithin send (time / retryDelay + 2) bus time

omit [Monad m]

/-- The message of a payload, if it is one. -/
def message? (payload : Bytes) : Option Message :=
  match Bytes.text? payload with
  | some _ => (Wire.parse Wire.readMessage payload).toOption
  | none => none

/-- What a payload from the channel makes the handlers do. -/
def deliver (payload : Bytes) : List HandlerCall :=
  if bus.isSubscribed then
    match message? payload with
    | some message => bus.handlers.dispatch bus.node message.origin message.event
    | none => []
  else []

/-- The server closes the connection of a subscriber. -/
def disconnect : RedisBus :=
  match bus.subscription with
  | .active => { bus with subscription := .lost retryDelay }
  | _ => bus

/-- The node leaves. -/
def leave : RedisBus := { bus with subscription := .ended }

/-- Registers a handler. -/
def subscribe (kind : EventKind) (handler : Handler) : RedisBus :=
  { bus with handlers := bus.handlers.register kind handler }

end RedisBus

end PresenceTracker
