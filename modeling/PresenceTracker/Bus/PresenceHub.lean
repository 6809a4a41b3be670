import PresenceTracker.Bus.Broadcast
import PresenceTracker.Event

/-!
# Presence events to clients

Connected clients subscribe to the presence events of their node on a channel for broadcasts, and
each gets the events shown from then on. Presence events of other nodes are shown too; all other
events are ignored.
-/

namespace PresenceTracker

/-- The clients of a node, over a channel with states of type `σ`. -/
structure PresenceHub (σ : Type) where
  /-- The state of the channel. -/
  state : σ
  /-- The receivers of the clients, by name. -/
  clients : List (String × Nat) := []

namespace PresenceHub

variable {σ : Type} (channel : Broadcast PresenceEvent σ)

/-- A node without clients, with the size asked for of its channel. -/
def opened (size : Nat) : PresenceHub σ := { state := channel.build (max size 1) }

/-- Removes a client. -/
def drop (hub : PresenceHub σ) (name : String) : PresenceHub σ :=
  match hub.clients.lookup name with
  | none => hub
  | some receiver =>
    { state := ((channel.drop receiver).run hub.state).2
      clients := hub.clients.filter fun entry => entry.1 ≠ name }

/-- Adds a client, in place of one of the same name. -/
def subscribe (hub : PresenceHub σ) (name : String) : PresenceHub σ :=
  let left := hub.drop channel name
  let (receiver, state) := channel.subscribe.run left.state
  { state, clients := left.clients ++ [(name, receiver)] }

/-- Shows an event to every client. -/
def publish (hub : PresenceHub σ) (presence : PresenceEvent) : PresenceHub σ :=
  { hub with state := ((channel.send presence).run hub.state).2 }

/-- Shows the presence events of other nodes. -/
def handle (hub : PresenceHub σ) : Event → PresenceHub σ
  | .presenceChanged presence => hub.publish channel presence
  | _ => hub

/-- What a client receives next, if anything waits. -/
def receive (hub : PresenceHub σ) (name : String) :
    Option (Receipt PresenceEvent) × PresenceHub σ :=
  match hub.clients.lookup name with
  | none => (none, hub)
  | some receiver =>
    let (receipt, state) := (channel.receive receiver).run hub.state
    (receipt, { hub with state })

/-- The number of clients. -/
def size (hub : PresenceHub σ) : Nat := channel.receivers hub.state

end PresenceHub

end PresenceTracker
