import Mathlib.Logic.Function.Basic
import PresenceTracker.Proofs.Engine.Ensures
import PresenceTracker.Redis.Reply

/-!
# What a server with channels does

A server hands every payload that is published on a channel to every connection that has subscribed
to the channel by then, the payloads in the order in which they come in. What it is said to do
speaks of the commands that nodes send and of the payloads that wait for each connection; how they
get there is its own affair. A connection that has subscribed takes no other commands, so that a
node has two. A server that keeps what waits for each connection is one that does all this.
-/

namespace PresenceTracker.Redis

/-- A connection of a client to a server. -/
inductive Line where
  /-- The connection over which a client sends its commands. -/
  | commands (client : String)
  /-- The connection over which a client receives what is published. -/
  | messages (client : String)
  deriving DecidableEq, Repr

/-- What a connection is subscribed to. -/
structure Outlet where
  /-- The channel. -/
  channel : Bytes
  /-- The payloads that wait, the oldest first. -/
  waiting : List Bytes := []

namespace Outlet

/-- Puts a payload behind those that wait, if it is for the channel. -/
def offer (channel payload : Bytes) (outlet : Outlet) : Outlet :=
  if outlet.channel = channel then { outlet with waiting := outlet.waiting ++ [payload] }
  else outlet

/-- The oldest payload has been received, if one waits. -/
def rest (outlet : Outlet) : Outlet := { outlet with waiting := outlet.waiting.tail }

end Outlet

/-- A server with channels, with states of type `σ`. -/
structure PubSub (σ : Type) where
  /-- Replies to a command that comes over a connection. -/
  respond : Line → Command → StateM σ Reply
  /-- What is received next over a connection, if anything waits. -/
  receive : Line → StateM σ (Option Bytes)
  /-- What a connection is subscribed to, if it is subscribed. -/
  outlet : σ → Line → Option Outlet

namespace PubSub

variable {σ : Type}

/-- The payloads that wait for a connection. -/
def waiting (server : PubSub σ) (state : σ) (line : Line) : List Bytes :=
  ((server.outlet state line).map Outlet.waiting).getD []

/-- What the commands do, as it is documented. -/
structure Documented (server : PubSub σ) : Prop where
  /-- `SUBSCRIBE` subscribes a connection to a channel, and nothing waits for it yet. -/
  subscribe : ∀ line channel state, server.outlet state line = none →
    Ensures (server.respond line ⟨"SUBSCRIBE", [channel]⟩) state fun reply later =>
      (∃ items, reply = .list items) ∧
        server.outlet later = Function.update (server.outlet state) line (some { channel })
  /-- `PUBLISH` hands a payload to all connections that are subscribed to a channel, and counts
  them. -/
  publish : ∀ line channel payload state, server.outlet state line = none →
    Ensures (server.respond line ⟨"PUBLISH", [channel, payload]⟩) state fun reply later =>
      (∃ count, reply = .integer count) ∧
        server.outlet later = fun other =>
          (server.outlet state other).map (Outlet.offer channel payload)
  /-- A subscriber receives the oldest payload. -/
  receive : ∀ line outlet state, server.outlet state line = some outlet →
    Ensures (server.receive line) state fun received later =>
      received = outlet.waiting.head? ∧
        server.outlet later = Function.update (server.outlet state) line (some outlet.rest)

end PubSub

/-- A server that keeps what waits for each connection. -/
structure Broker where
  /-- The connections that have subscribed, the last one first. -/
  lines : List Line := []
  /-- What each of them is subscribed to. -/
  outlet : Line → Option Outlet := fun _ => none

namespace Broker

/-- The number of connections that are subscribed to a channel. -/
def subscribers (broker : Broker) (channel : Bytes) : Nat :=
  broker.lines.countP fun line => (broker.outlet line).any fun outlet => outlet.channel = channel

/-- The reply to a command that comes over a connection, and the server afterwards. -/
def respond (line : Line) (command : Command) : StateM Broker Reply := fun broker =>
  match command.name, command.arguments with
  | "SUBSCRIBE", [channel] =>
    (.list [Bytes.ofText "subscribe", channel],
      { lines := line :: broker.lines
        outlet := Function.update broker.outlet line (some { channel }) })
  | "PUBLISH", [channel, payload] =>
    (.integer (broker.subscribers channel),
      { broker with
        outlet := fun other => (broker.outlet other).map (Outlet.offer channel payload) })
  | _, _ => (.failure "ERR unknown command", broker)

/-- The server. -/
def server : PubSub Broker where
  respond := respond
  receive line broker :=
    ((broker.outlet line).bind fun outlet => outlet.waiting.head?,
      { broker with
        outlet := Function.update broker.outlet line ((broker.outlet line).map Outlet.rest) })
  outlet := outlet

/-- The server does what is documented. -/
theorem server_documented : server.Documented where
  subscribe line channel state _ := ⟨⟨_, rfl⟩, rfl⟩
  publish line channel payload state _ := ⟨⟨_, rfl⟩, rfl⟩
  receive line outlet state h := by
    have houtlet : state.outlet line = some outlet := h
    show (state.outlet line).bind (fun outlet => outlet.waiting.head?) = outlet.waiting.head? ∧
      Function.update state.outlet line ((state.outlet line).map Outlet.rest) =
        Function.update state.outlet line (some outlet.rest)
    rw [houtlet]
    exact ⟨rfl, rfl⟩

end Broker

end PresenceTracker.Redis
