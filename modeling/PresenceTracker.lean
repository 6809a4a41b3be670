import PresenceTracker.Bus.Broadcast
import PresenceTracker.Bus.Handlers
import PresenceTracker.Bus.Hub
import PresenceTracker.Bus.PresenceHub
import PresenceTracker.Bytes
import PresenceTracker.Cache.Memory
import PresenceTracker.Cache.Registry
import PresenceTracker.Cache.Request
import PresenceTracker.Cache.Wheel
import PresenceTracker.Cluster.Scenario
import PresenceTracker.Cluster.World
import PresenceTracker.Compact
import PresenceTracker.Decimal.Binary64
import PresenceTracker.Decimal.Digits
import PresenceTracker.Decimal.Parse
import PresenceTracker.Decimal.Shortest
import PresenceTracker.Engine.Operations
import PresenceTracker.Engine.Outside
import PresenceTracker.Engine.Site
import PresenceTracker.Engine.Slots
import PresenceTracker.Event
import PresenceTracker.Failure
import PresenceTracker.Frame
import PresenceTracker.Json.Access
import PresenceTracker.Json.Basic
import PresenceTracker.Json.Number
import PresenceTracker.Json.Reader
import PresenceTracker.Json.Shape
import PresenceTracker.Json.Value
import PresenceTracker.Json.Writer
import PresenceTracker.Launch.Arguments
import PresenceTracker.Launch.Start
import PresenceTracker.Log.Entry
import PresenceTracker.Log.Filter
import PresenceTracker.Main
import PresenceTracker.MaskedAddress
import PresenceTracker.NodeId
import PresenceTracker.Proofs.Bus.Transports
import PresenceTracker.Proofs.Cache.Contract
import PresenceTracker.Proofs.Cache.Invalidation
import PresenceTracker.Proofs.Cache.Memory
import PresenceTracker.Proofs.Cache.Pool
import PresenceTracker.Proofs.Cache.Shelf
import PresenceTracker.Proofs.Cluster.Activity
import PresenceTracker.Proofs.Cluster.Disabled
import PresenceTracker.Proofs.Cluster.Inheritance
import PresenceTracker.Proofs.Cluster.Leader
import PresenceTracker.Proofs.Cluster.Lockstep
import PresenceTracker.Proofs.Cluster.Network
import PresenceTracker.Proofs.Cluster.ReadBack
import PresenceTracker.Proofs.Cluster.Repeating
import PresenceTracker.Proofs.Cluster.Scenario
import PresenceTracker.Proofs.Cluster.Shape
import PresenceTracker.Proofs.Cluster.SingleWriter
import PresenceTracker.Proofs.Cluster.Streams
import PresenceTracker.Proofs.Cluster.Validity
import PresenceTracker.Proofs.Cluster.World
import PresenceTracker.Proofs.Compact.Exact
import PresenceTracker.Proofs.Compact.Guards
import PresenceTracker.Proofs.Compact.PrefixFree
import PresenceTracker.Proofs.Compact.RoundTrip
import PresenceTracker.Proofs.Engine.Announcing
import PresenceTracker.Proofs.Engine.Calls
import PresenceTracker.Proofs.Engine.Channel
import PresenceTracker.Proofs.Engine.Coalescing
import PresenceTracker.Proofs.Engine.Coherence
import PresenceTracker.Proofs.Engine.Committing
import PresenceTracker.Proofs.Engine.Confined
import PresenceTracker.Proofs.Engine.Effects
import PresenceTracker.Proofs.Engine.Ensures
import PresenceTracker.Proofs.Engine.Eviction
import PresenceTracker.Proofs.Engine.Exclusion
import PresenceTracker.Proofs.Engine.Failing
import PresenceTracker.Proofs.Engine.Frame
import PresenceTracker.Proofs.Engine.Habits
import PresenceTracker.Proofs.Engine.Handling
import PresenceTracker.Proofs.Engine.History
import PresenceTracker.Proofs.Engine.Holding
import PresenceTracker.Proofs.Engine.Independence
import PresenceTracker.Proofs.Engine.Inheritance
import PresenceTracker.Proofs.Engine.Knowledge
import PresenceTracker.Proofs.Engine.LastActivity
import PresenceTracker.Proofs.Engine.Marking
import PresenceTracker.Proofs.Engine.Mirror
import PresenceTracker.Proofs.Engine.Mirroring
import PresenceTracker.Proofs.Engine.Notes
import PresenceTracker.Proofs.Engine.Outcome
import PresenceTracker.Proofs.Engine.ReadBeside
import PresenceTracker.Proofs.Engine.ReadMany
import PresenceTracker.Proofs.Engine.Reads
import PresenceTracker.Proofs.Engine.Repeating
import PresenceTracker.Proofs.Engine.Run
import PresenceTracker.Proofs.Engine.Running
import PresenceTracker.Proofs.Engine.Secrecy
import PresenceTracker.Proofs.Engine.Serving
import PresenceTracker.Proofs.Engine.SlotMap
import PresenceTracker.Proofs.Engine.SlotTurns
import PresenceTracker.Proofs.Engine.Sticky
import PresenceTracker.Proofs.Engine.Succeeding
import PresenceTracker.Proofs.Engine.Sweep
import PresenceTracker.Proofs.Engine.SweepBeside
import PresenceTracker.Proofs.Engine.TimedDnd
import PresenceTracker.Proofs.Engine.Tracking
import PresenceTracker.Proofs.Engine.Transparency
import PresenceTracker.Proofs.Engine.Upkeep
import PresenceTracker.Proofs.Engine.Windows
import PresenceTracker.Proofs.Frame.RoundTrip
import PresenceTracker.Proofs.Json.Fields
import PresenceTracker.Proofs.Json.Number
import PresenceTracker.Proofs.Json.Object
import PresenceTracker.Proofs.Json.Text
import PresenceTracker.Proofs.Json.Tree
import PresenceTracker.Proofs.Json.Utf8
import PresenceTracker.Proofs.Json.Values
import PresenceTracker.Proofs.MaskedAddress
import PresenceTracker.Proofs.Record.Agreement
import PresenceTracker.Proofs.Record.Choice
import PresenceTracker.Proofs.Record.Settled
import PresenceTracker.Proofs.Record.Shape
import PresenceTracker.Proofs.Record.Timeless
import PresenceTracker.Proofs.Record.Validity
import PresenceTracker.Proofs.Redis.Namespace
import PresenceTracker.Proofs.Redis.Server
import PresenceTracker.Proofs.Redis.Shelves
import PresenceTracker.Proofs.Redis.TreeServer
import PresenceTracker.Proofs.Settings.InForce
import PresenceTracker.Proofs.Store.Rows
import PresenceTracker.Proofs.Store.Sweeps
import PresenceTracker.Proofs.Wire.Message
import PresenceTracker.Proofs.Wire.Node
import PresenceTracker.Proofs.Wire.Record
import PresenceTracker.Record
import PresenceTracker.Redis.Bus
import PresenceTracker.Redis.Cache
import PresenceTracker.Redis.Reply
import PresenceTracker.Scheduler
import PresenceTracker.Settings.Json
import PresenceTracker.Settings.Sections
import PresenceTracker.Settings.Tracking
import PresenceTracker.Settings.Tree
import PresenceTracker.Source.Environment
import PresenceTracker.Source.File
import PresenceTracker.Source.FileTree
import PresenceTracker.Source.Load
import PresenceTracker.Source.Merge
import PresenceTracker.Source.Value
import PresenceTracker.Status
import PresenceTracker.Store
import PresenceTracker.Store.Call
import PresenceTracker.Table
import PresenceTracker.Text
import PresenceTracker.Time
import PresenceTracker.Toml.Document
import PresenceTracker.Toml.Layout
import PresenceTracker.Toml.Scalar
import PresenceTracker.Toml.Table
import PresenceTracker.Toml.Text
import PresenceTracker.Topic
import PresenceTracker.Transition
import PresenceTracker.Wire.Message
import PresenceTracker.Wire.Record
