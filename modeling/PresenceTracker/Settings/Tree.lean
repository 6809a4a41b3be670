import PresenceTracker.Settings.Sections

/-!
# Reading settings from a tree

The sections are read from any kind of tree that offers named fields and scalars. A field
that is not there takes its default; the address of the database has none. Unknown fields
are ignored.
-/

namespace PresenceTracker

/-- A tree that settings can be read from. A reading that fails gives a text. -/
class SettingsTree (σ : Type) where
  /-- The fields of a section with these names that are there, in any order. -/
  fields : List String → σ → Except String (List (String × σ))
  /-- A text. -/
  text : σ → Except String String
  /-- A truth value. -/
  truth : σ → Except String Bool
  /-- An unsigned word of 64 bits. -/
  word64 : σ → Except String UInt64
  /-- An unsigned word of 32 bits. -/
  word32 : σ → Except String UInt32
  /-- One of the values that have a name. -/
  choice : {α : Type} → (String → Option α) → σ → Except String α

namespace SettingsTree

variable {σ : Type} [SettingsTree σ]

/-- A field with a value for its absence. -/
def field {α : Type} (found : List (String × σ)) (name : String) (absent : α)
    (read : σ → Except String α) : Except String α :=
  match found.lookup name with
  | some tree => read tree
  | none => .ok absent

/-- A field that has to be there. -/
def required {α : Type} (found : List (String × σ)) (name : String)
    (read : σ → Except String α) : Except String α :=
  match found.lookup name with
  | some tree => read tree
  | none => .error ("missing field " ++ name)

/-- The settings of the durable store. -/
def database (tree : σ) : Except String DatabaseSettings := do
  let found ← fields ["url", "max_connections", "min_connections", "connect_timeout_seconds",
    "idle_timeout_seconds"] tree
  return {
    url := ← required found "url" text
    maxConnections := ← field found "max_connections" 20 word32
    minConnections := ← field found "min_connections" 2 word32
    connectTimeoutSeconds := ← field found "connect_timeout_seconds" 10 word64
    idleTimeoutSeconds := ← field found "idle_timeout_seconds" 300 word64 }

/-- The settings of a cache server. -/
def cacheServer (tree : σ) : Except String CacheServerSettings := do
  let found ← fields ["url", "operation_timeout_ms"] tree
  return {
    url := ← field found "url" "redis://localhost:6379" text
    operationTimeoutMs := ← field found "operation_timeout_ms" 250 word64 }

/-- The settings of caches in memory. -/
def memoryCache (tree : σ) : Except String MemoryCacheSettings := do
  let found ← fields ["max_capacity"] tree
  return { maxCapacity := ← field found "max_capacity" 50000 word64 }

/-- The settings of caches. -/
def cache (tree : σ) : Except String CacheSettings := do
  let found ← fields ["provider", "default_ttl_seconds", "redis", "memory"] tree
  return {
    provider := ← field found "provider" "memory" text
    defaultTtlSeconds := ← field found "default_ttl_seconds" 1800 word64
    server := ← field found "redis" {} cacheServer
    memory := ← field found "memory" {} memoryCache }

/-- The settings of the messages between nodes. -/
def cluster (tree : σ) : Except String ClusterSettings := do
  let found ← fields ["provider", "redis_url", "channel", "presence_buffer_size"] tree
  return {
    provider := ← field found "provider" "memory" text
    redisUrl := ← field found "redis_url" "redis://localhost:6379" text
    channel := ← field found "channel" "statushub:cluster" text
    presenceBufferSize := ← field found "presence_buffer_size" 256 word64 }

/-- The settings of the status engine. -/
def tracking (tree : σ) : Except String TrackingSettings := do
  let found ← fields ["enabled", "away_timeout_seconds", "min_update_interval_ms",
    "dnd_expiry_interval_seconds"] tree
  return {
    enabled := ← field found "enabled" true truth
    awayTimeoutSeconds := ← field found "away_timeout_seconds" 300 word64
    minUpdateIntervalMs := ← field found "min_update_interval_ms" 60000 word64
    sweepIntervalSeconds := ← field found "dnd_expiry_interval_seconds" 60 word64 }

/-- The settings of recurring jobs. -/
def worker (tree : σ) : Except String WorkerSettings := do
  let found ← fields ["enabled"] tree
  return { enabled := ← field found "enabled" true truth }

/-- The settings of the log. -/
def logging (tree : σ) : Except String LoggingSettings := do
  let found ← fields ["level", "format"] tree
  return {
    level := ← field found "level" "info" text
    format := ← field found "format" .json (choice LogFormat.ofName?) }

/-- The settings of the whole program. -/
def app (tree : σ) : Except String AppSettings := do
  let found ← fields ["database", "cache", "cluster", "status", "worker", "logging"] tree
  return {
    database := ← required found "database" database
    cache := ← field found "cache" {} cache
    cluster := ← field found "cluster" {} cluster
    status := ← field found "status" {} tracking
    worker := ← field found "worker" {} worker
    logging := ← field found "logging" {} logging }

end SettingsTree

end PresenceTracker
