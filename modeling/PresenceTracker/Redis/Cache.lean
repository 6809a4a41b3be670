import PresenceTracker.Cache.Request
import PresenceTracker.Failure
import PresenceTracker.Redis.Reply
import PresenceTracker.Settings.Sections
import PresenceTracker.Topic

/-!
# Caches on a server

A cache on a server that all nodes share. Its keys are told from those of other caches by
its name in front of them. Every call is one command, but a purge, which lists the keys and
then deletes them. A call without a reply in time fails. How commands are sent is a
parameter.
-/

namespace PresenceTracker

/-- A cache on a server. -/
structure RedisCache where
  /-- The name. -/
  name : String
  /-- How long a value lives unless the writer says otherwise. -/
  defaultTtl : Duration
  /-- How long a call may take. -/
  timeout : Duration
  deriving DecidableEq, Repr

namespace RedisCache

open Redis

/-- The address of a server that the client cannot make sense of. -/
def badAddress : Failure := .around .cache "Failed to create Redis client"

/-- The cache of a name that settings ask for. -/
def ofSettings (name : String) (settings : CacheSettings) : RedisCache where
  name := name
  defaultTtl := Duration.ofSeconds settings.defaultTtlSeconds.toNat
  timeout := Duration.ofMillis settings.server.operationTimeoutMs.toNat

/-- All nodes share the server, so there is nobody to tell about changes. -/
def topic (_ : RedisCache) : Topic := .shared

/-- The key on the server, as bytes. -/
def fullKey (cache : RedisCache) (key : String) : Bytes :=
  Bytes.ofText (CacheName.namespaced cache.name key)

/-- What a failing command is reported as. -/
def refused (detail : String) : Failure := .around .cache ("Redis error: " ++ detail)

/-- What a command without a reply in time is reported as. -/
def timedOut (cache : RedisCache) (command : Command) : Failure :=
  .around .timeout ("Redis " ++ command.name ++ " on cache '" ++ cache.name ++
    "' timed out after " ++ Duration.text cache.timeout)

/-- The result of a command, given its reply. -/
def resultOf {α : Type} (cache : RedisCache) (command : Command)
    (read : Reply → Except String α) : Reply → Except Failure α
  | .silence => .error (cache.timedOut command)
  | reply => (read reply).mapError refused

variable {m : Type → Type} [Monad m] (send : Command → m Reply) (cache : RedisCache)

/-- Sends a command and reads its reply. -/
def call {α : Type} (command : Command) (read : Reply → Except String α) :
    m (Except Failure α) := do
  return cache.resultOf command read (← send command)

/-- Looks a key up. -/
def get (key : String) : m (Except Failure (Option Bytes)) :=
  call send cache ⟨"GET", [cache.fullKey key]⟩ Reply.asBytes

/-- The milliseconds of a lifetime, as far as an unsigned 64-bit word goes. -/
def lifetimeMillis (lifetime : Duration) : Nat :=
  min (Duration.wholeMillis lifetime) (UInt64.size - 1)

/-- Writes a value with a lifetime; zero means for ever. -/
def set (key : String) (value : Bytes) (lifetime : Duration) : m (Except Failure Unit) :=
  let command : Command :=
    if lifetime = 0 then ⟨"SET", [cache.fullKey key, value]⟩
    else
      ⟨"PSETEX", [cache.fullKey key, Bytes.ofText (Decimal.natText (lifetimeMillis lifetime)),
        value]⟩
  call send cache command Reply.asDone

/-- Writes a value that lives as long as values of this cache do by default. -/
def setDefault (key : String) (value : Bytes) : m (Except Failure Unit) :=
  set send cache key value cache.defaultTtl

/-- Removes a key. -/
def remove (key : String) : m (Except Failure Unit) :=
  call send cache ⟨"DEL", [cache.fullKey key]⟩ Reply.asDone

/-- Lists the keys on the server that match the pattern of this cache. -/
def fullKeys : m (Except Failure (List String)) :=
  call send cache ⟨"KEYS", [Bytes.ofText (CacheName.pattern cache.name)]⟩ Reply.asTexts

/-- Removes every key. -/
def purge : m (Except Failure Unit) := do
  match ← fullKeys send cache with
  | .error failure => return .error failure
  | .ok [] => return .ok ()
  | .ok found => call send cache ⟨"DEL", found.map Bytes.ofText⟩ Reply.asDone

/-- The rest of a text behind another one. -/
def behind? (head text : String) : Option String :=
  if head.toList.isPrefixOf text.toList then
    some (String.ofList (text.toList.drop head.length))
  else none

/-- Lists the keys. -/
def keys : m (Except Failure (List String)) := do
  let found ← fullKeys send cache
  return found.map fun texts => texts.filterMap (behind? (CacheName.namespaced cache.name ""))

/-- Counts the keys. -/
def size : m (Except Failure Nat) := do
  return (← fullKeys send cache).map List.length

/-- Checks the server. -/
def health : m (Except Failure Bool) := do
  return (← call send cache ⟨"PING", []⟩ Reply.asText).map fun text => text == "PONG"

/-- Does something with each of several caches. One that fails does not keep the others from being
reached; the first failure is reported. -/
def forEach (act : RedisCache → m (Except Failure Unit)) :
    List RedisCache → m (Except Failure Unit)
  | [] => return .ok ()
  | cache :: rest => do
    let result ← act cache
    let others ← forEach act rest
    match result with
    | .error failure => return .error failure
    | .ok () => return others

/-- Empties several caches. -/
def purgeAll (caches : List RedisCache) : m (Except Failure Unit) := forEach (purge send) caches

/-- Whether the server is well for several caches; the first for which it is not decides. -/
def healthAll : List RedisCache → m (Except Failure Bool)
  | [] => return .ok true
  | cache :: rest => do
    match ← health send cache with
    | .ok true => healthAll rest
    | other => return other

/-- Answers a request by commands to the server. -/
def answer : CacheRequest → m (Except Failure CacheResponse)
  | .get key => return (← get send cache key).map .value
  | .set key value lifetime => return (← set send cache key value lifetime).map fun _ => .done
  | .setDefault key value => return (← setDefault send cache key value).map fun _ => .done
  | .remove key => return (← remove send cache key).map fun _ => .done
  | .purge => return (← purge send cache).map fun _ => .done
  | .keys => return (← keys send cache).map .keys
  | .size => return (← size send cache).map .size
  | .health => return (← health send cache).map .health

end RedisCache

end PresenceTracker
