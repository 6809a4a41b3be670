/-!
# Invalidation topics

Every cache names the topic on which other nodes are told about its changes. A
cache that all nodes share has the topic `shared`, on which nobody is told.
-/

namespace PresenceTracker

/-- Which caches a remote invalidation is for. -/
inductive Topic where
  /-- The cache is shared by all nodes; there is nothing to tell. -/
  | shared
  /-- Status records. -/
  | status
  /-- User profiles. -/
  | users
  /-- Teams. -/
  | teams
  /-- Channels. -/
  | channels
  /-- Webhooks. -/
  | webhooks
  deriving DecidableEq, Repr

namespace Topic

/-- Every topic, in declaration order. -/
def all : List Topic := [shared, status, users, teams, channels, webhooks]

/-- The written name of a topic. -/
def name : Topic → String
  | shared => "none"
  | status => "status"
  | users => "users"
  | teams => "teams"
  | channels => "channels"
  | webhooks => "webhooks"

/-- The topic with exactly this written name. -/
def ofName? (text : String) : Option Topic := all.find? fun topic => topic.name == text

theorem ofName?_name (topic : Topic) : ofName? topic.name = some topic := by
  cases topic <;> rfl

/-- Whether other nodes must be told about changes. -/
def needsPeers (topic : Topic) : Bool := topic ≠ .shared

end Topic

end PresenceTracker
