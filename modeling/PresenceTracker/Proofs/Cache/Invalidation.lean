import PresenceTracker.Cache.Registry
import PresenceTracker.Proofs.Cache.Pool
import PresenceTracker.Proofs.Redis.TreeServer

/-!
# Invalidations hit their targets

A name that is taken is refused, so a cache in memory keeps the topic of the first build of its
name that succeeded. An invalidation drops a key, or every key, in the caches of its topic that
work, whether others of them fail or not, and leaves everything else as it was. It fails if one of
these caches does, and a second time it finds nothing to drop.

Caches on a server have no topics of their own, since every node sees them. An invalidation is for
none of them, whatever topics they were built with.
-/

namespace PresenceTracker

variable {σ : Type} {pool : Pool σ} {holds : σ → String → Prop}

namespace MemoryCache

variable {cache : MemoryCache σ} {now : Duration} {key : Option String}

/-- Drops a key, or every key. -/
def drop (pool : Pool σ) (cache : MemoryCache σ) (now : Duration) :
    Option String → Except Failure Unit × MemoryCache σ
  | some key => cache.remove pool now key
  | none => cache.purge pool now

/-- What the pool is asked for to drop a key, or every key. -/
def dropWork (pool : Pool σ) (now : Duration) : Option String → StateM σ Unit
  | some key => pool.remove now key
  | none => do
    pool.dropAll now
    pool.tend now

/-- A cache after a key has been dropped, or every key, if that does not fail. -/
def dropped (pool : Pool σ) (cache : MemoryCache σ) (now : Duration) (key : Option String) :
    MemoryCache σ :=
  { cache with held := ((dropWork pool now key).run cache.held).2 }

/-- The cache with the contents of another one, whose calls fail as those of the other one do. -/
def furnished (cache other : MemoryCache σ) : MemoryCache σ :=
  { cache with held := other.held, faults := other.faults }

end MemoryCache

namespace CacheRegistry

/-- What happens to a registry until an invalidation comes in. -/
inductive Step (σ : Type) where
  /-- A cache is asked for. -/
  | build (now : Duration) (name : String) (topic : Topic)
  /-- A cache comes to hold other contents, and its calls to fail in other ways. -/
  | furnish (name : String) (contents : MemoryCache σ)

/-- The registry after a step. -/
def step (pool : Pool σ) (registry : CacheRegistry σ) : Step σ → CacheRegistry σ
  | .build now name topic =>
    match registry.build pool now name topic with
    | .ok (_, built) => built
    | .error _ => registry
  | .furnish name contents =>
    { registry with
      caches := registry.caches.map fun known cache =>
        if known = name then cache.furnished contents else cache }

/-- The registry after several steps. -/
def after (pool : Pool σ) (registry : CacheRegistry σ) (steps : List (Step σ)) :
    CacheRegistry σ :=
  steps.foldl (step pool) registry

section Invalidate

variable {registry : CacheRegistry σ} {passes : MemoryCache σ → Bool}
  {act : MemoryCache σ → Except Failure Unit × MemoryCache σ}

end Invalidate

end CacheRegistry

namespace CacheRegistry

/-- Two caches of statuses and one of users are built, a name is asked for once more with another
topic, two caches come to hold the same keys, and the other one fails to remove any. -/
def busySteps : List (Step Wheel) :=
  let entries : Table WheelEntry :=
    ((∅ : Table WheelEntry).insert "ada" ⟨⟨[1], none⟩, none⟩).insert "bob" ⟨⟨[2], none⟩, none⟩
  let contents : MemoryCache Wheel :=
    { name := "", topic := .shared, defaultTtl := 0, held := { built := 0, entries } }
  [.build 0 "status" .status, .build 0 "broken" .status, .build 0 "users" .users,
    .build 5 "status" .users, .furnish "status" contents, .furnish "users" contents,
    .furnish "broken" { contents with faults := [(.remove, .timedOut)] }]

end CacheRegistry

end PresenceTracker
