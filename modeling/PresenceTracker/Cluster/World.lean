import PresenceTracker.Bus.Broadcast
import PresenceTracker.Cache.Request
import PresenceTracker.Engine.Operations

/-!
# A cluster of nodes

Several nodes share one store and one transport for messages. Each node has its own
settings, its own bookkeeping on writes and its own clients, and a cache of its own or one
that it shares with others. What an operation publishes waits on the transport until the
listeners of the other nodes run; a listener for which more messages wait than the channel
holds loses the oldest. The channels of the transport and of the clients are parameters.
-/

namespace PresenceTracker

/-- The method of a call to a cache. -/
def CacheCall.method : CacheCall → CacheMethod
  | get _ => .get
  | put _ => .set
  | remove _ => .remove
  | purge => .purge

/-- What a node keeps to itself. -/
structure Member where
  /-- The settings in force. -/
  settings : TrackingSettings := {}
  /-- The topic of the node's cache. -/
  topic : Topic := .status
  /-- Which cache the node uses. -/
  cacheKey : String
  /-- Whether the node listens to the others. -/
  attached : Bool := true
  /-- The size asked for of the channel to the node's client. -/
  presenceBuffer : Nat := 64
  /-- The look-ups counted so far. -/
  tally : Tally := {}
  /-- When the node last wrote the users it keeps track of. -/
  slots : Table Moment := ∅
  /-- How calls of the node to its cache fail at present. -/
  cacheFaults : List (CacheMethod × Failure) := []
  /-- The messages published since the last delivery. -/
  published : List Event := []
  /-- The events shown to the node's client since the last delivery. -/
  shown : List PresenceEvent := []

/-- A cluster: nodes, the store and the caches, and what is under way between them. -/
structure World where
  /-- The reading of the clock. -/
  clock : Moment
  /-- The rows of the store. -/
  store : Store := ∅
  /-- The frames of every cache. -/
  caches : Table (Table Bytes) := ∅
  /-- The nodes, by name. -/
  members : Table Member := ∅
  /-- The size asked for of the channel of the transport. -/
  hubBuffer : Nat := 64
  /-- How calls to the store fail at present. -/
  storeFaults : List (StoreMethod × StoreFault) := []
  /-- The calls to the store since the last delivery. -/
  asked : List StoreCall := []
  /-- The messages since the last delivery, each with its node if it is one of these. -/
  messages : List (Option String × Event) := []

namespace World

/-- The failures that calls of a node meet at present. -/
def outside (world : World) (member : Member) : Outside where
  storeFault _ call := world.storeFaults.lookup call.method
  cacheFault _ call := member.cacheFaults.lookup call.method
  vanishes _ _ := false

/-- The part of a cluster that an operation on one node works on. -/
def site (world : World) (member : Member) : Site where
  clock := world.clock
  settings := member.settings
  topic := member.topic
  store := world.store
  cache := world.caches[member.cacheKey]?.getD ∅
  tally := member.tally
  slots := member.slots

/-- The node after an operation on it. -/
def memberAfter (member : Member) (site : Site) : Member :=
  { member with
    tally := site.tally
    slots := site.slots
    published := member.published ++ site.published
    shown := member.shown ++ site.shown }

/-- The cluster after a node has left its part of it in some state. -/
def left (world : World) (name : String) (member : Member) (site : Site) : World :=
  { world with
    store := site.store
    caches := world.caches.insert member.cacheKey site.cache
    members := world.members.insert name (memberAfter member site)
    asked := world.asked ++ site.asked
    messages := world.messages ++ site.published.map (some name, ·) }

/-- Runs something on a node. -/
def onMember {α : Type} (world : World) (name : String) (member : Member)
    (action : Outside → StateM Site α) : α × World :=
  let (result, site) := (action (world.outside member)).run (world.site member)
  (result, world.left name member site)

/-- What the listener of a node hears of messages. Its own ones it passes over. -/
def heard (name : String) (messages : List (Option String × Event)) : List Event :=
  (messages.filter fun message => message.1 ≠ some name).map Prod.snd

section Listeners

variable {σ : Type} (channel : Broadcast (Option String × Event) σ)

/-- The events that the listener of a node takes from the transport, in order. -/
def delivered (world : World) (name : String) : List Event :=
  heard name
    ((channel.relay (max world.hubBuffer 1) world.messages).filterMap Receipt.message?)

/-- Runs the listener of one node until nothing waits for it. -/
def listen (world : World) (name : String) : World :=
  match world.members[name]? with
  | some member =>
    if member.attached then
      (world.onMember name member fun outside =>
        (world.delivered channel name).forM (Engine.receive outside)).2
    else world
  | none => world

/-- Runs the listeners of all nodes until nothing is under way. What the nodes published
and showed stays to be looked at. -/
def settle (world : World) : World :=
  let world := world.members.keys.foldl (listen channel) world
  { world with messages := [] }

end Listeners

/-- Forgets what was published, shown and asked since the last delivery. -/
def fresh (world : World) : World :=
  { world with
    asked := []
    members := world.members.map fun _ member => { member with published := [], shown := [] } }

/-- What the client of a node receives of the events shown since the last delivery. -/
def presence {σ : Type} (channel : Broadcast PresenceEvent σ) (member : Member) :
    List (Receipt PresenceEvent) :=
  channel.relay (max member.presenceBuffer 1) member.shown

end World

end PresenceTracker
