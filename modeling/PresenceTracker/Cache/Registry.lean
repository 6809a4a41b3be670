import PresenceTracker.Cache.Memory
import PresenceTracker.Event
import PresenceTracker.Redis.Cache
import PresenceTracker.Table

/-!
# The caches of a node

A node keeps its caches by name. A name is taken for good by the first cache built with it.
A registry that was made around a given cache builds no others. An invalidation from
another node is for all caches of its topic, whether some of them fail or not. A node whose settings
ask for a server keeps its caches there. Every node sees those, so none of them has a topic of its
own, whatever topic it is built with, and an invalidation from another node is for none of them.
-/

namespace PresenceTracker

/-- The caches of a node, over pools with states of type `σ`. -/
structure CacheRegistry (σ : Type) where
  /-- How long values of new caches live by default; nothing if there are no new caches. -/
  newCacheTtl : Option Duration
  /-- The caches, by name. -/
  caches : Table (MemoryCache σ) := ∅

namespace CacheRegistry

variable {σ : Type}

/-- Refuses a kind of backend nobody knows. -/
def unknownProvider (provider : String) : Failure :=
  .plain .configuration
    ("Unknown cache provider: '" ++ provider ++ "'. Supported: memory, redis")

/-- Refuses a name that is taken. -/
def nameTaken (name : String) : Failure :=
  .plain .conflict ("Cache '" ++ name ++ "' is already registered")

/-- Refuses a new cache beside a given one. -/
def buildsNone : Failure :=
  .plain .configuration "Cache manager was built from a fixed provider and cannot create caches"

/-- An empty registry that builds caches in memory. -/
def inMemory (settings : CacheSettings) : CacheRegistry σ :=
  { newCacheTtl := some (Duration.ofSeconds settings.defaultTtlSeconds.toNat) }

/-- The registry that settings ask for. A cache server cannot be used without an address. -/
def ofSettings (settings : CacheSettings) : Except Failure (CacheRegistry σ) :=
  if settings.provider = "memory" then .ok (inMemory settings)
  else if settings.provider = "redis" then .error RedisCache.badAddress
  else .error (unknownProvider settings.provider)

/-- A registry of one given cache. -/
def around (cache : MemoryCache σ) : CacheRegistry σ :=
  { newCacheTtl := none, caches := (∅ : Table (MemoryCache σ)).insert cache.name cache }

/-- Builds a cache at a moment and registers it. -/
def build (pool : Pool σ) (registry : CacheRegistry σ) (now : Duration) (name : String)
    (topic : Topic) : Except Failure (MemoryCache σ × CacheRegistry σ) :=
  match registry.newCacheTtl with
  | none => .error buildsNone
  | some defaultTtl =>
    if registry.caches.contains name then .error (nameTaken name)
    else
      let cache : MemoryCache σ := { name, topic, defaultTtl, held := pool.build now }
      .ok (cache, { registry with caches := registry.caches.insert name cache })

/-- The caches that an invalidation on a topic is for. -/
def ofTopic (registry : CacheRegistry σ) (topic : Topic) : List (MemoryCache σ) :=
  if topic.needsPeers then registry.caches.values.filter fun cache => cache.topic = topic else []

/-- Does something with every cache that passes a test. A cache that fails does not keep the
others from being reached; the first failure is reported. -/
def forEach (registry : CacheRegistry σ) (passes : MemoryCache σ → Bool)
    (act : MemoryCache σ → Except Failure Unit × MemoryCache σ) :
    Except Failure Unit × CacheRegistry σ :=
  let chosen := registry.caches.values.filter passes
  let failure := chosen.findSome? fun cache =>
    match (act cache).1 with
    | .error failure => some failure
    | .ok () => none
  let caches := registry.caches.map fun _ cache => if passes cache then (act cache).2 else cache
  (match failure with
    | some failure => .error failure
    | none => .ok (), { registry with caches })

/-- Empties every cache. -/
def purgeAll (pool : Pool σ) (registry : CacheRegistry σ) (now : Duration) :
    Except Failure Unit × CacheRegistry σ :=
  registry.forEach (fun _ => true) fun cache => cache.purge pool now

/-- Whether every cache is well; the first one that is not decides. -/
def healthAll (registry : CacheRegistry σ) : Except Failure Bool :=
  registry.caches.values.foldl
    (fun known cache =>
      match known with
      | .ok true => cache.health.1
      | other => other)
    (.ok true)

/-- Drops what an invalidation from another node names; other events are ignored. -/
def invalidate (pool : Pool σ) (registry : CacheRegistry σ) (now : Duration) :
    Event → Except Failure Unit × CacheRegistry σ
  | .invalidateCache topic key =>
    registry.forEach (fun cache => topic.needsPeers && cache.topic = topic) fun cache =>
      match key with
      | some key => cache.remove pool now key
      | none => cache.purge pool now
  | _ => (.ok (), registry)

end CacheRegistry

/-- The caches of a node on a server. -/
structure RedisRegistry where
  /-- How caches are kept. -/
  settings : CacheSettings
  /-- The caches, by name. -/
  caches : Table RedisCache := ∅

namespace RedisRegistry

/-- Builds a cache and registers it. The topic it is asked for is of no use. -/
def build (registry : RedisRegistry) (name : String) (_ : Topic) :
    Except Failure (RedisCache × RedisRegistry) :=
  if registry.caches.contains name then .error (CacheRegistry.nameTaken name)
  else
    let cache : RedisCache := .ofSettings name registry.settings
    .ok (cache, { registry with caches := registry.caches.insert name cache })

/-- The caches that an invalidation on a topic is for. -/
def ofTopic (registry : RedisRegistry) (topic : Topic) : List RedisCache :=
  if topic.needsPeers then registry.caches.values.filter fun cache => cache.topic = topic else []

/-- Drops what an invalidation from another node names; other events are ignored. -/
def invalidate {m : Type → Type} [Monad m] (send : Redis.Command → m Redis.Reply)
    (registry : RedisRegistry) : Event → m (Except Failure Unit)
  | .invalidateCache topic key =>
    RedisCache.forEach
      (fun cache =>
        match key with
        | some key => cache.remove send key
        | none => cache.purge send)
      (registry.ofTopic topic)
  | _ => return .ok ()

end RedisRegistry

end PresenceTracker
