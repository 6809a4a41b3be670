import PresenceTracker.Bus.Broadcast
import PresenceTracker.Bus.Handlers
import PresenceTracker.Settings.Sections

/-!
# A transport in memory

Nodes of one process talk through a hub, which is a channel for broadcasts. Everything that is
published reaches every node that has joined by then, the publisher included, and a node's
listener hands what it receives to the node's handlers. A node that joins again is a new
node.
-/

namespace PresenceTracker

/-- A node that has joined a hub. -/
structure HubNode where
  /-- The number of the node, which no other one has. -/
  id : Nat
  /-- The receiver on the channel. -/
  receiver : Nat
  /-- The handlers. -/
  handlers : HandlerTable := []

/-- The calls that the listener of a node makes for what it has received. A report that messages
were lost is for the log only. -/
def HubNode.respond (node : HubNode) : Receipt (Nat × Event) → List HandlerCall
  | .message (origin, event) => node.handlers.dispatch node.id origin event
  | .lagged _ => []

/-- A transport in memory over a channel with states of type `σ`, on which events travel with the
number of the node they came from. -/
structure Hub (σ : Type) where
  /-- The state of the channel. -/
  state : σ
  /-- The number of nodes that have joined so far. -/
  joined : Nat := 0
  /-- The nodes by name, in the order in which they joined. -/
  nodes : List (String × HubNode) := []

namespace Hub

variable {σ : Type} (channel : Broadcast (Nat × Event) σ)

/-- A transport that no node has joined yet, with the size asked for of its channel. -/
def opened (size : Nat) : Hub σ := { state := channel.build (max size 1) }

/-- Refuses a kind of transport nobody knows. -/
def unknownProvider (provider : String) : Failure :=
  .plain .configuration ("Unknown cluster provider: '" ++ provider ++ "'. Supported: memory")

/-- The transport that settings ask for. -/
def ofSettings (settings : ClusterSettings) : Except Failure (Hub σ) :=
  if settings.provider = "memory" then .ok (opened channel settings.presenceBufferSize.toNat)
  else .error (unknownProvider settings.provider)

/-- Removes a node. -/
def leave (hub : Hub σ) (name : String) : Hub σ :=
  match hub.nodes.lookup name with
  | none => hub
  | some node =>
    { hub with
      state := ((channel.drop node.receiver).run hub.state).2
      nodes := hub.nodes.filter fun entry => entry.1 ≠ name }

/-- Adds a new node, in place of one of the same name. -/
def join (hub : Hub σ) (name : String) : Hub σ :=
  let left := hub.leave channel name
  let (receiver, state) := channel.subscribe.run left.state
  { state
    joined := left.joined + 1
    nodes := left.nodes ++ [(name, { id := left.joined, receiver })] }

/-- Changes a node. -/
def onNode (hub : Hub σ) (name : String) (change : HubNode → HubNode) : Hub σ :=
  { hub with
    nodes := hub.nodes.map fun entry => if entry.1 = name then (name, change entry.2) else entry }

/-- Registers a handler on a node. -/
def subscribe (hub : Hub σ) (name : String) (kind : EventKind) (handler : Handler) : Hub σ :=
  hub.onNode name fun node => { node with handlers := node.handlers.register kind handler }

/-- Publishes events from a node, in order. -/
def publish (hub : Hub σ) (name : String) (events : List Event) : Hub σ :=
  match hub.nodes.lookup name with
  | none => hub
  | some node =>
    { hub with
      state := ((events.forM fun event => channel.send (node.id, event)).run hub.state).2 }

/-- The listener of a node waits for what comes next, and makes the calls for it. -/
def listen (node : HubNode) : StateM σ (List HandlerCall) := do
  return (← channel.receive node.receiver).elim [] node.respond

/-- Runs all listeners until nothing waits. -/
def settle (hub : Hub σ) : List HandlerCall × Hub σ :=
  let work : StateM σ (List (List HandlerCall)) := hub.nodes.mapM fun entry =>
    return (← channel.receiveAll entry.2.receiver).flatMap entry.2.respond
  let (calls, state) := work.run hub.state
  (calls.flatten, { hub with state })

/-- The number of different identities among the nodes. -/
def distinctIds (hub : Hub σ) : Nat := (hub.nodes.map fun entry => entry.2.id).eraseDups.length

end Hub

end PresenceTracker
