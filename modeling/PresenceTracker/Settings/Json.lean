import PresenceTracker.Json.Reader
import PresenceTracker.Json.Shape
import PresenceTracker.Json.Writer
import PresenceTracker.Settings.Tree

/-!
# Settings as JSON

Sections are read from JSON text as structures of scalars of exactly the wanted type, and
written with all their fields in order.
-/

namespace PresenceTracker

namespace Json

/-- A reading of a tree that reports a fault by its text. -/
def told {α : Type} (read : Json → Except Fault α) (json : Json) : Except String α :=
  (read json).mapError Fault.text

instance : SettingsTree Json where
  fields known json := (told (fields known) json).map Fields.entries
  text := told asText
  truth := told asBool
  word64 := told asWord64
  word32 := told asWord32
  choice ofName? := told (asName false ofName?)

end Json

namespace Settings

open Json

/-- The section that a JSON text stands for. -/
def parse {α : Type} (read : Json → Except String α) (input : Bytes) : Except Failure α :=
  match Json.parse input with
  | .error fault => .error fault.failure
  | .ok json => (read json).mapError Failure.json

/-- An unsigned word as JSON. -/
def writeWord (value : Nat) : Bytes := writeInt value

/-- The settings of the durable store as JSON. -/
def writeDatabase (settings : DatabaseSettings) : Bytes :=
  writeObject [
    ("url", writeText settings.url),
    ("max_connections", writeWord settings.maxConnections.toNat),
    ("min_connections", writeWord settings.minConnections.toNat),
    ("connect_timeout_seconds", writeWord settings.connectTimeoutSeconds.toNat),
    ("idle_timeout_seconds", writeWord settings.idleTimeoutSeconds.toNat)]

/-- The settings of caches as JSON. -/
def writeCache (settings : CacheSettings) : Bytes :=
  writeObject [
    ("provider", writeText settings.provider),
    ("default_ttl_seconds", writeWord settings.defaultTtlSeconds.toNat),
    ("redis", writeObject [
      ("url", writeText settings.server.url),
      ("operation_timeout_ms", writeWord settings.server.operationTimeoutMs.toNat)]),
    ("memory", writeObject [("max_capacity", writeWord settings.memory.maxCapacity.toNat)])]

/-- The settings of the messages between nodes as JSON. -/
def writeCluster (settings : ClusterSettings) : Bytes :=
  writeObject [
    ("provider", writeText settings.provider),
    ("redis_url", writeText settings.redisUrl),
    ("channel", writeText settings.channel),
    ("presence_buffer_size", writeWord settings.presenceBufferSize.toNat)]

/-- The settings of the status engine as JSON. -/
def writeTracking (settings : TrackingSettings) : Bytes :=
  writeObject [
    ("enabled", writeBool settings.enabled),
    ("away_timeout_seconds", writeWord settings.awayTimeoutSeconds.toNat),
    ("min_update_interval_ms", writeWord settings.minUpdateIntervalMs.toNat),
    ("dnd_expiry_interval_seconds", writeWord settings.sweepIntervalSeconds.toNat)]

/-- The settings of recurring jobs as JSON. -/
def writeWorker (settings : WorkerSettings) : Bytes :=
  writeObject [("enabled", writeBool settings.enabled)]

/-- The settings of the log as JSON. -/
def writeLogging (settings : LoggingSettings) : Bytes :=
  writeObject [
    ("level", writeText settings.level),
    ("format", writeText settings.format.name)]

/-- The settings of the whole program as JSON. -/
def writeApp (settings : AppSettings) : Bytes :=
  writeObject [
    ("database", writeDatabase settings.database),
    ("cache", writeCache settings.cache),
    ("cluster", writeCluster settings.cluster),
    ("status", writeTracking settings.status),
    ("worker", writeWorker settings.worker),
    ("logging", writeLogging settings.logging)]

end Settings

end PresenceTracker
