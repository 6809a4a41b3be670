import PresenceTracker.Cache.Request
import PresenceTracker.Failure
import PresenceTracker.Topic

/-!
# Caches in memory

A cache in memory is built on a pool of values that expire, which it does not implement itself.
The cache says of every write how long the value is to live, and the pool keeps it for that long;
how the pool keeps values, and when it gets rid of one that has expired, is its own affair. The
moment of each call is given by the caller.
-/

namespace PresenceTracker

/-- A value with the lifetime that it is written with, if it is not to live for ever. -/
structure TimedValue where
  /-- The value. -/
  value : Bytes
  /-- How long it is to live. -/
  lifetime : Option Duration
  deriving DecidableEq, Repr

/-- How long a pool is to keep a value from the moment on at which it is written; nothing means
for ever. -/
structure ExpiryPolicy where
  /-- The value of a key that the pool does not hold yet. -/
  afterCreate : TimedValue → Option Duration
  /-- The new value of a key that it holds, and how much longer the old one would have lived. -/
  afterUpdate : TimedValue → Option Duration → Option Duration

/-- A pool of values that expire, with states of type `σ`. -/
structure Pool (σ : Type) where
  /-- An empty pool that is built at a moment. -/
  build : Duration → σ
  /-- Looks a key up. -/
  get : Duration → String → StateM σ (Option TimedValue)
  /-- Writes a value that lives as long as a policy says. -/
  insert : ExpiryPolicy → Duration → String → TimedValue → StateM σ Unit
  /-- Removes a key. -/
  remove : Duration → String → StateM σ Unit
  /-- Drops all values, which the pool may get rid of later. -/
  dropAll : Duration → StateM σ Unit
  /-- Lists the keys with their values. -/
  list : Duration → StateM σ (List (String × TimedValue))
  /-- Does the work that the pool has put off. -/
  tend : Duration → StateM σ Unit
  /-- The number of values that the pool counts. -/
  count : σ → Nat

/-- A cache in memory over a pool with states of type `σ`. -/
structure MemoryCache (σ : Type) where
  /-- The name. -/
  name : String
  /-- The topic on which other nodes are told about changes. -/
  topic : Topic
  /-- How long a value lives unless the writer says otherwise. -/
  defaultTtl : Duration
  /-- The state of the pool. -/
  held : σ
  /-- How calls fail at present. -/
  faults : List (CacheMethod × Failure) := []

namespace MemoryCache

variable {σ α β : Type}

/-- With every write the lifetime begins anew that the value is written with. -/
def expiry : ExpiryPolicy where
  afterCreate written := written.lifetime
  afterUpdate written _ := written.lifetime

/-- Has the pool do something, unless calls of this sort fail, which then changes nothing. -/
def ask (cache : MemoryCache σ) (method : CacheMethod) (work : StateM σ α) :
    Except Failure α × MemoryCache σ :=
  match cache.faults.lookup method with
  | some failure => (.error failure, cache)
  | none =>
    let (given, held) := work.run cache.held
    (.ok given, { cache with held })

variable (pool : Pool σ) (cache : MemoryCache σ) (now : Duration)

/-- Looks a key up. -/
def get (key : String) : Except Failure (Option Bytes) × MemoryCache σ :=
  cache.ask .get do return (← pool.get now key).map TimedValue.value

/-- Writes a value with a lifetime; zero means for ever. -/
def set (key : String) (value : Bytes) (lifetime : Duration) :
    Except Failure Unit × MemoryCache σ :=
  cache.ask .set
    (pool.insert expiry now key ⟨value, if lifetime = 0 then none else some lifetime⟩)

/-- Writes a value that lives as long as values of this cache do by default. -/
def setDefault (key : String) (value : Bytes) : Except Failure Unit × MemoryCache σ :=
  cache.set pool now key value cache.defaultTtl

/-- Removes a key. -/
def remove (key : String) : Except Failure Unit × MemoryCache σ :=
  cache.ask .remove (pool.remove now key)

/-- Removes every key. -/
def purge : Except Failure Unit × MemoryCache σ :=
  cache.ask .purge do
    pool.dropAll now
    pool.tend now

/-- Lists the keys. -/
def keys : Except Failure (List String) × MemoryCache σ :=
  cache.ask .keys do return (← pool.list now).map Prod.fst

/-- Counts the values. -/
def size : Except Failure Nat × MemoryCache σ :=
  cache.ask .size do
    pool.tend now
    return pool.count (← getThe σ)

/-- Checks the backend, which is always well unless the check fails. -/
def health : Except Failure Bool × MemoryCache σ := cache.ask .health (return true)

/-- The outcome of a call as a response. -/
def told (respond : α → CacheResponse) (outcome : Except Failure α × MemoryCache σ) :
    Except Failure CacheResponse × MemoryCache σ :=
  (outcome.1.map respond, outcome.2)

/-- Answers a request at a moment. -/
def answer : CacheRequest → Except Failure CacheResponse × MemoryCache σ
  | .get key => told .value (cache.get pool now key)
  | .set key value lifetime => told (fun _ => .done) (cache.set pool now key value lifetime)
  | .setDefault key value => told (fun _ => .done) (cache.setDefault pool now key value)
  | .remove key => told (fun _ => .done) (cache.remove pool now key)
  | .purge => told (fun _ => .done) (cache.purge pool now)
  | .keys => told .keys (cache.keys pool now)
  | .size => told .size (cache.size pool now)
  | .health => told .health cache.health

end MemoryCache

end PresenceTracker
