import PresenceTracker.Store.Call

/-!
# What happens outside of the engine

The engine calls a store and a cache that it does not control. Any call may fail, which
then has no effect; a failing call to the store may also kill the task that made it. And
an entry of the cache may vanish at any moment, because it expires or because the cache
is full. An `Outside` says what happens at each call, counted from the first call that the
engine ever makes. The rows that a sweep gives back have no order of their own: the store
gives them back in any one.
-/

namespace PresenceTracker

/-- A call to the cache. -/
inductive CacheCall where
  /-- Looks a key up. -/
  | get (user : String)
  /-- Writes a record under its user. -/
  | put (record : Record)
  /-- Removes a key. -/
  | remove (user : String)
  /-- Removes every key. -/
  | purge
  deriving DecidableEq, Repr

/-- How a call to the store fails. -/
inductive StoreFault where
  /-- The store reports a failure. -/
  | refused (failure : Failure)
  /-- The task that made the call is killed. -/
  | killed
  deriving DecidableEq, Repr

/-- A way to put items in order. -/
structure Arrangement (α : Type) where
  /-- The items in their order. -/
  arrange : List α → List α
  /-- No item is lost, and none is there twice. -/
  perm : ∀ items, (arrange items).Perm items

namespace Arrangement

/-- The items as they were given. -/
def asGiven {α : Type} : Arrangement α := ⟨id, .refl⟩

/-- The items from the last one to the first. -/
def backwards {α : Type} : Arrangement α := ⟨List.reverse, List.reverse_perm⟩

end Arrangement

/-- What happens at each call of the engine. -/
structure Outside where
  /-- How a call to the store fails, if it does. -/
  storeFault : Nat → StoreCall → Option StoreFault
  /-- How a call to the cache fails, if it does. -/
  cacheFault : Nat → CacheCall → Option Failure
  /-- Whether the entry of a key vanishes just before the call. -/
  vanishes : Nat → String → Bool
  /-- In which order the store gives back the rows of a sweep. -/
  order : Nat → Arrangement Record := fun _ => .asGiven

namespace Outside

/-- Nothing fails and nothing vanishes. -/
def calm : Outside where
  storeFault _ _ := none
  cacheFault _ _ := none
  vanishes _ _ := false

end Outside

end PresenceTracker
