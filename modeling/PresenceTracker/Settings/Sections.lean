import PresenceTracker.Settings.Tracking

/-!
# Sections of the settings

The settings of the whole program, one structure for each section. Every setting but the
address of the database has a value for its absence.
-/

namespace PresenceTracker

/-- How to reach the durable store. -/
structure DatabaseSettings where
  /-- The address of the database. -/
  url : String
  /-- The most connections held at a time. -/
  maxConnections : UInt32 := 20
  /-- The fewest connections held at a time. -/
  minConnections : UInt32 := 2
  /-- How long to wait for a connection, in seconds. -/
  connectTimeoutSeconds : UInt64 := 10
  /-- How long an idle connection is held, in seconds. -/
  idleTimeoutSeconds : UInt64 := 300
  deriving DecidableEq, Repr

/-- How to reach a cache server. -/
structure CacheServerSettings where
  /-- The address of the server. -/
  url : String := "redis://localhost:6379"
  /-- How long a call may take, in milliseconds. -/
  operationTimeoutMs : UInt64 := 250
  deriving DecidableEq, Repr

/-- How large a cache in memory may become. -/
structure MemoryCacheSettings where
  /-- The most entries of one cache. -/
  maxCapacity : UInt64 := 50000
  deriving DecidableEq, Repr

/-- How caches are kept. -/
structure CacheSettings where
  /-- Where caches are kept. -/
  provider : String := "memory"
  /-- How long an entry lives unless the writer says otherwise, in seconds. -/
  defaultTtlSeconds : UInt64 := 1800
  /-- How to reach a cache server. -/
  server : CacheServerSettings := {}
  /-- How large a cache in memory may become. -/
  memory : MemoryCacheSettings := {}
  deriving DecidableEq, Repr

/-- How the nodes of a cluster talk to each other. -/
structure ClusterSettings where
  /-- What carries the messages. -/
  provider : String := "memory"
  /-- The address of the server that carries messages. -/
  redisUrl : String := "redis://localhost:6379"
  /-- The channel that carries messages. -/
  channel : String := "statushub:cluster"
  /-- The size asked for of each client's mailbox. -/
  presenceBufferSize : UInt64 := 256
  deriving DecidableEq, Repr

/-- Whether recurring jobs run on this node. -/
structure WorkerSettings where
  /-- Whether they run. -/
  enabled : Bool := true
  deriving DecidableEq, Repr

/-- How log lines look. -/
inductive LogFormat where
  /-- One JSON object for each line. -/
  | json
  /-- Several lines for people to read. -/
  | pretty
  deriving DecidableEq, Repr

namespace LogFormat

/-- Both formats, in declaration order. -/
def all : List LogFormat := [json, pretty]

/-- The written name of a format. -/
def name : LogFormat → String
  | json => "json"
  | pretty => "pretty"

/-- The format with exactly this written name. -/
def ofName? (text : String) : Option LogFormat := all.find? fun format => format.name == text

theorem ofName?_name (format : LogFormat) : ofName? format.name = some format := by
  cases format <;> rfl

end LogFormat

/-- What is logged, and how. -/
structure LoggingSettings where
  /-- What is logged. -/
  level : String := "info"
  /-- How log lines look. -/
  format : LogFormat := .json
  deriving DecidableEq, Repr

/-- The settings of the whole program. -/
structure AppSettings where
  /-- How to reach the durable store. -/
  database : DatabaseSettings
  /-- How caches are kept. -/
  cache : CacheSettings := {}
  /-- How the nodes of a cluster talk to each other. -/
  cluster : ClusterSettings := {}
  /-- What the status engine reads. -/
  status : TrackingSettings := {}
  /-- Whether recurring jobs run on this node. -/
  worker : WorkerSettings := {}
  /-- What is logged, and how. -/
  logging : LoggingSettings := {}
  deriving DecidableEq, Repr

end PresenceTracker
