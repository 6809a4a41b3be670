import PresenceTracker.Engine.Outside
import PresenceTracker.Frame
import PresenceTracker.Store
import PresenceTracker.Transition

/-!
# One node at work

The state that an operation on one node reads and changes: the shared store, the node's
cache and the bookkeeping on when the node last wrote each user, together with everything
the operation lets out, which is the messages published to the other nodes and the events
shown to the node's clients. The definitions below are the single calls to the store and
the cache; each may fail as the `Outside` says, and then changes nothing.
-/

namespace PresenceTracker

/-- How many look-ups of a cache found a record, found nothing, or failed. -/
structure Tally where
  /-- Look-ups that found a record. -/
  hits : Nat := 0
  /-- Look-ups that found nothing. -/
  misses : Nat := 0
  /-- Look-ups that failed. -/
  errors : Nat := 0
  deriving DecidableEq, Repr

/-- Counts one look-up. -/
def Tally.count (tally : Tally) : Except Failure (Option Record) → Tally
  | .ok (some _) => { tally with hits := tally.hits + 1 }
  | .ok none => { tally with misses := tally.misses + 1 }
  | .error _ => { tally with errors := tally.errors + 1 }

/-- The state that an operation on one node reads and changes. -/
structure Site where
  /-- The reading of the node's clock. -/
  clock : Moment
  /-- The settings in force. -/
  settings : TrackingSettings := {}
  /-- The topic of the node's cache. -/
  topic : Topic := .status
  /-- The rows of the store. -/
  store : Store := ∅
  /-- The frames in the node's cache, by user. -/
  cache : Table Bytes := ∅
  /-- The look-ups counted so far. -/
  tally : Tally := {}
  /-- When this node last wrote a user's row, for the users it keeps track of. -/
  slots : Table Moment := ∅
  /-- The number of calls made so far. -/
  calls : Nat := 0
  /-- The calls to the store made so far, failed ones included. -/
  asked : List StoreCall := []
  /-- The messages published to the other nodes so far. -/
  published : List Event := []
  /-- The events shown to the node's clients so far. -/
  shown : List PresenceEvent := []

namespace Site

/-- The record that the cache holds for a user, if it holds a frame that decodes. -/
def cached? (site : Site) (user : String) : Option Record :=
  site.cache[user]?.bind fun frame => (FrameCodec.record.decode frame).toOption

/-- The record of a user as the node sees it: cached, or else stored. -/
def current? (site : Site) (user : String) : Option Record :=
  (site.cached? user).or site.store[user]?

/-- The site at the moment a call is made: entries that vanish are gone, and the call is
counted. -/
def atCall (outside : Outside) (site : Site) : Site :=
  { site with
    calls := site.calls + 1
    cache := site.cache.filter fun user _ => !outside.vanishes site.calls user }

/-- What a look-up of a user in the cache gives if the call does not fail. -/
def lookUpResult (site : Site) (user : String) : Except Failure (Option Record) :=
  match site.cache[user]? with
  | none => .ok none
  | some frame => (FrameCodec.record.decode frame).map some

/-- The rows that a sweep at time `now` turns, as they are afterwards and in the order in which
the store gives them back. -/
def turned (outside : Outside) (site : Site) (now : Moment) : List Record :=
  (outside.order site.calls).arrange (site.store.expired now)

end Site

namespace Engine

/-- Looks a user up in the cache. A frame that does not decode counts as a failure. -/
def cacheGet (outside : Outside) (user : String) :
    StateM Site (Except Failure (Option Record)) := fun site =>
  let after := site.atCall outside
  let found := match outside.cacheFault site.calls (.get user) with
    | some failure => .error failure
    | none => after.lookUpResult user
  (found, { after with tally := after.tally.count found })

/-- Writes a record to the cache. -/
def cachePut (outside : Outside) (record : Record) : StateM Site (Except Failure Unit) :=
  fun site =>
    let after := site.atCall outside
    match outside.cacheFault site.calls (.put record) with
    | some failure => (.error failure, after)
    | none =>
      let cache := after.cache.insert record.userId (FrameCodec.record.encode record)
      (.ok (), { after with cache })

/-- Removes a user from the cache. -/
def cacheRemove (outside : Outside) (user : String) : StateM Site (Except Failure Unit) :=
  fun site =>
    let after := site.atCall outside
    match outside.cacheFault site.calls (.remove user) with
    | some failure => (.error failure, after)
    | none => (.ok (), { after with cache := after.cache.erase user })

/-- Removes every entry of the cache. -/
def cachePurge (outside : Outside) : StateM Site (Except Failure Unit) := fun site =>
  let after := site.atCall outside
  match outside.cacheFault site.calls .purge with
  | some failure => (.error failure, after)
  | none => (.ok (), { after with cache := ∅ })

/-- Makes a call to the store: it is logged, and unless it fails it gives a result and
leaves the rows in some state. -/
def storeCall {α : Type} (outside : Outside) (call : StoreCall)
    (run : Store → Except Failure α × Store) : StateM Site (Except StoreFault α) := fun site =>
  let after := { site.atCall outside with asked := site.asked ++ [call] }
  match outside.storeFault site.calls call with
  | some fault => (.error fault, after)
  | none =>
    let (result, store) := run after.store
    (result.mapError .refused, { after with store })

/-- Reads one row. -/
def storeGet (outside : Outside) (user : String) : StateM Site (Except StoreFault Record) :=
  storeCall outside (.get user) fun store => (store.find user, store)

/-- Reads several rows. -/
def storeGetMany (outside : Outside) (users : List String) :
    StateM Site (Except StoreFault (List Record)) :=
  storeCall outside (.getMany users) fun store => (.ok (store.findMany users), store)

/-- Writes a whole row. -/
def storeSave (outside : Outside) (record : Record) : StateM Site (Except StoreFault Unit) :=
  storeCall outside (.save record) fun store =>
    match store.save record with
    | .ok saved => (.ok (), saved)
    | .error failure => (.error failure, store)

/-- Sets the last activity of a row. -/
def storeTouch (outside : Outside) (user : String) (moment : Moment) :
    StateM Site (Except StoreFault Unit) :=
  storeCall outside (.touch user moment) fun store => (.ok (), store.touch user moment)

/-- Turns the rows whose deadline has passed, and gives them back. -/
def storeSweep (outside : Outside) (now : Moment) :
    StateM Site (Except StoreFault (List Record)) := fun site =>
  (storeCall outside (.sweep now)
    fun store => (.ok (site.turned outside now), store.sweep now)).run site

/-- Deletes a row. -/
def storeDelete (outside : Outside) (user : String) : StateM Site (Except StoreFault Unit) :=
  storeCall outside (.delete user) fun store => (.ok (), store.delete user)

/-- Publishes an event to the other nodes. -/
def publish (event : Event) : StateM Site Unit :=
  modify fun site => { site with published := site.published ++ [event] }

/-- Publishes an event to the other nodes if they have caches of their own. -/
def publishToPeers (event : Topic → Event) : StateM Site Unit := do
  let site ← get
  if site.topic.needsPeers then publish (event site.topic)

/-- Shows an event to the node's clients. -/
def showClients (presence : PresenceEvent) : StateM Site Unit :=
  modify fun site => { site with shown := site.shown ++ [presence] }

end Engine

end PresenceTracker
