import PresenceTracker.Bytes
import PresenceTracker.Time

/-!
# What callers ask of caches

The names of caches and of their keys, what callers ask of a cache and are told, and what becomes
of a value that they write, whichever backend the cache has. Every cache has a name; backends that
share one space of keys put the name and a colon in front of each key.
-/

namespace PresenceTracker

namespace CacheName

/-- The cache of status records. -/
def status : String := "status"

/-- The cache of user profiles. -/
def users : String := "users"

/-- The key of a user in the cache of status records. -/
def statusKey (user : String) : String := user

/-- A key of a cache in a space of keys that caches share. -/
def namespaced (name key : String) : String := name ++ ":" ++ key

/-- The pattern that all keys of a cache match. -/
def pattern (name : String) : String := name ++ ":*"

end CacheName

/-- The calls to a cache that can be made to fail together. -/
inductive CacheMethod where
  /-- Look-ups. -/
  | get
  /-- Writes of every sort. -/
  | set
  /-- Removals. -/
  | remove
  /-- Purges. -/
  | purge
  /-- Listings of the keys. -/
  | keys
  /-- Counts of the entries. -/
  | size
  /-- Checks of the backend. -/
  | health
  deriving DecidableEq, Repr

namespace CacheMethod

/-- Every method. -/
def all : List CacheMethod := [get, set, remove, purge, keys, size, health]

/-- The name of a method. -/
def name : CacheMethod → String
  | get => "get"
  | set => "set"
  | remove => "remove"
  | purge => "purge"
  | keys => "keys"
  | size => "len"
  | health => "health"

/-- The method with a name. -/
def ofName? (text : String) : Option CacheMethod := all.find? fun method => method.name == text

/-- The name of a method stands for it. -/
theorem ofName?_name (method : CacheMethod) : ofName? method.name = some method := by
  cases method <;> rfl

end CacheMethod

/-- What a caller asks of a cache. -/
inductive CacheRequest where
  /-- The value of a key. -/
  | get (key : String)
  /-- A write with a lifetime; zero means for ever. -/
  | set (key : String) (value : Bytes) (lifetime : Duration)
  /-- A write of a value that lives as long as values do by default. -/
  | setDefault (key : String) (value : Bytes)
  /-- The removal of a key. -/
  | remove (key : String)
  /-- The removal of every key. -/
  | purge
  /-- A listing of the keys. -/
  | keys
  /-- The number of the values. -/
  | size
  /-- A check of the backend. -/
  | health
  deriving DecidableEq, Repr

/-- What a caller is told by a cache that does not fail. -/
inductive CacheResponse where
  /-- The value of a key, if it has one. -/
  | value (found : Option Bytes)
  /-- That it is done. -/
  | done
  /-- The keys. -/
  | keys (found : List String)
  /-- The number of the values. -/
  | size (count : Nat)
  /-- Whether the backend is well. -/
  | health (isWell : Bool)
  deriving DecidableEq, Repr

/-- A value that is gone from some moment on. -/
structure CacheEntry where
  /-- The value. -/
  value : Bytes
  /-- The moment from which on it is gone, if it expires. -/
  expires : Option Duration := none
  deriving DecidableEq, Repr

namespace CacheEntry

/-- Whether a value is there at a moment. -/
def isLive (entry : CacheEntry) (now : Duration) : Bool := entry.expires.all fun last => now < last

/-- The value at a moment, as long as it is there. -/
def at? (entry : CacheEntry) (moment : Duration) : Option Bytes :=
  if entry.isLive moment then some entry.value else none

/-- A value written at a moment, with a lifetime; zero means for ever. -/
def written (value : Bytes) (now lifetime : Duration) : CacheEntry :=
  ⟨value, if lifetime = 0 then none else some (now + lifetime)⟩

/-- What is there at a moment has been there before. -/
theorem isLive_of_le {entry : CacheEntry} {now later : Duration} (h : now ≤ later)
    (hl : entry.isLive later = true) : entry.isLive now = true := by
  cases he : entry.expires with
  | none => simp [isLive, he]
  | some last =>
    simp only [isLive, he, Option.all_some, decide_eq_true_eq] at hl ⊢
    exact Nat.lt_of_le_of_lt h hl

end CacheEntry

end PresenceTracker
