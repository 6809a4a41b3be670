import PresenceTracker.Cluster.World
import PresenceTracker.Settings.Tracking

/-!
# Scenarios

What can be done to a cluster, one step after the other: operations on its nodes, alone,
side by side or abandoned by their callers, and changes of what surrounds the nodes. After
every step everything that is under way between the nodes is delivered.

An operation that works on a user or sweeps runs in a task of its own, so it completes
even if its caller goes away. Operations that are started side by side run one after the
other; a second sweep job is skipped while the first one is under way.
-/

namespace PresenceTracker

/-- Something that is run on a node in a task of its own. -/
inductive Errand where
  /-- An operation of the engine. -/
  | operation (operation : Operation)
  /-- A pass of the sweep job. -/
  | job
  deriving DecidableEq, Repr

/-- A call to the cache of a node. -/
inductive CacheStep where
  /-- Looks a user up. -/
  | get (user : String)
  /-- Writes a record. -/
  | put (record : Record)
  /-- Removes a user. -/
  | remove (user : String)
  /-- Removes every entry. -/
  | purge
  deriving DecidableEq, Repr

/-- A step on one node. -/
inductive NodeStep where
  /-- Runs an errand. -/
  | run (errand : Errand)
  /-- Starts two passes of the sweep job together. -/
  | overlappingJobs
  /-- Runs errands side by side. -/
  | parallel (errands : List Errand)
  /-- Starts an errand and goes away. -/
  | abandon (errand : Errand)
  /-- Calls the cache. -/
  | cache (step : CacheStep)
  /-- Makes a method of the cache fail. -/
  | failCache (method : CacheMethod) (failure : Failure)
  /-- Makes a method of the cache work again. -/
  | healCache (method : CacheMethod)
  /-- Puts a frame into the cache, past all failures. -/
  | plant (user : String) (frame : Bytes)
  /-- Replaces the settings. -/
  | configure (settings : TrackingSettings)
  /-- Switches tracking on or off. -/
  | enable (enabled : Bool)
  deriving DecidableEq, Repr

/-- A step on what surrounds the nodes. -/
inductive WorldStep where
  /-- Sets the clock. -/
  | setClock (now : Moment)
  /-- Moves the clock. -/
  | advance (duration : Moment)
  /-- Writes a row to the store directly. -/
  | storeRow (record : Record)
  /-- Makes a method of the store fail. -/
  | failStore (method : StoreMethod) (fault : StoreFault)
  /-- Makes a method of the store work again. -/
  | healStore (method : StoreMethod)
  /-- Another node publishes an event. -/
  | peer (event : Event)
  deriving DecidableEq, Repr

/-- The result of one errand. -/
inductive ErrandResult where
  /-- The result of an operation. -/
  | answer (answer : Answer)
  /-- The summary of a pass of the sweep job. -/
  | summary (summary : JobSummary)
  /-- The record found by a look-up of the cache, if any. -/
  | found (record : Option Record)
  deriving DecidableEq, Repr

/-- The result of a step. -/
inductive StepResult where
  /-- The result of a single errand. -/
  | one (result : Except Failure ErrandResult)
  /-- The results of several errands, in order. -/
  | many (results : List (Except Failure ErrandResult))
  /-- Whether an abandoned errand was over before its caller could go away. -/
  | abandoned (finished : Bool)

namespace StepResult

/-- Success without a value. -/
def done : StepResult := .one (.ok (.answer .done))

end StepResult

namespace Errand

/-- Runs an errand, while a pass of the sweep job is under way or not. -/
def run (errand : Errand) (jobUnderWay : Bool) (outside : Outside) :
    StateM Site (Except Failure ErrandResult) := do
  match errand with
  | operation asked => return (← asked.run outside).map .answer
  | job => return (← Engine.runJob outside jobUnderWay).map .summary

/-- Whether a caller waits for an errand, because it is left to a task of its own. -/
def isAwaited (errand : Errand) (outside : Outside) (site : Site) : Bool :=
  let accepted (user : String) := (Record.checkUser user).toOption.isSome
  site.settings.enabled &&
    match errand with
    | job => true
    | operation (.change user _) => accepted user
    | operation (.remove user) => accepted user
    | operation .expire => true
    | operation (.setLastActivity user moment) =>
      accepted user &&
        match ((Engine.cacheActivity outside user moment).run site).1 with
        | .ok known => known
        | .error _ => false
    | operation _ => false

/-- Runs errands that were started together. A pass of the sweep job is under way from the
first job on, unless tracking is disabled. -/
def runAll (outside : Outside) (jobUnderWay : Bool) :
    List Errand → StateM Site (List (Except Failure ErrandResult))
  | [] => return []
  | errand :: rest => do
    let result ← errand.run jobUnderWay outside
    let site ← get
    let underWay := jobUnderWay || (errand = .job && site.settings.enabled)
    return result :: (← runAll outside underWay rest)

end Errand

namespace CacheStep

/-- Makes a call to the cache. -/
def run (step : CacheStep) (outside : Outside) : StateM Site (Except Failure ErrandResult) := do
  match step with
  | get user => return (← Engine.cacheGet outside user).map .found
  | put record => return (← Engine.cachePut outside record).map fun _ => .answer .done
  | remove user => return (← Engine.cacheRemove outside user).map fun _ => .answer .done
  | purge => return (← Engine.cachePurge outside).map fun _ => .answer .done

end CacheStep

namespace World

/-- Replaces what a method fails with. -/
def setFault {μ φ : Type} [BEq μ] (faults : List (μ × φ)) (method : μ) (fault : φ) :
    List (μ × φ) :=
  (method, fault) :: faults.filter fun entry => !(entry.1 == method)

/-- Takes what a method fails with away. -/
def clearFault {μ φ : Type} [BEq μ] (faults : List (μ × φ)) (method : μ) : List (μ × φ) :=
  faults.filter fun entry => !(entry.1 == method)

/-- A step on one node. -/
def nodeStep (world : World) (name : String) (member : Member) : NodeStep → StepResult × World
  | .run errand =>
    let (result, world) := world.onMember name member (errand.run false)
    (.one result, world)
  | .overlappingJobs =>
    let (results, world) := world.onMember name member fun outside =>
      Errand.runAll outside false [.job, .job]
    (.many results, world)
  | .parallel errands =>
    let (results, world) := world.onMember name member fun outside =>
      Errand.runAll outside false errands
    (.many results, world)
  | .abandon errand =>
    let awaited := errand.isAwaited (world.outside member) (world.site member)
    let (_, world) := world.onMember name member (errand.run false)
    (.abandoned (!awaited), world)
  | .cache step =>
    let (result, world) := world.onMember name member step.run
    (.one result, world)
  | .failCache method failure =>
    let member := { member with cacheFaults := setFault member.cacheFaults method failure }
    (.done, { world with members := world.members.insert name member })
  | .healCache method =>
    let member := { member with cacheFaults := clearFault member.cacheFaults method }
    (.done, { world with members := world.members.insert name member })
  | .plant user frame =>
    let cache := world.caches[member.cacheKey]?.getD ∅
    (.done, { world with
      caches := world.caches.insert member.cacheKey (cache.insert user frame) })
  | .configure settings =>
    match ({ current := member.settings } : LiveSettings).update settings with
    | .error failure => (.one (.error failure), world)
    | .ok live =>
      let member := { member with settings := live.current }
      (.done, { world with members := world.members.insert name member })
  | .enable enabled =>
    let live : LiveSettings := { current := member.settings }
    let member := { member with settings := (live.setEnabled enabled).current }
    (.done, { world with members := world.members.insert name member })

/-- A step on what surrounds the nodes. -/
def worldStep (world : World) : WorldStep → StepResult × World
  | .setClock now => (.done, { world with clock := now })
  | .advance duration => (.done, { world with clock := world.clock + duration })
  | .storeRow record =>
    match world.store.save record with
    | .ok store => (.done, { world with store })
    | .error failure => (.one (.error failure), world)
  | .failStore method fault =>
    (.done, { world with storeFaults := setFault world.storeFaults method fault })
  | .healStore method =>
    (.done, { world with storeFaults := clearFault world.storeFaults method })
  | .peer event => (.done, { world with messages := world.messages ++ [(none, event)] })

section Steps

variable {σ : Type} (channel : Broadcast (Option String × Event) σ)

/-- A step on a node, with everything delivered afterwards; nothing if there is no such
node. -/
def runNodeStep (world : World) (name : String) (step : NodeStep) : Option (StepResult × World) :=
  let world := world.fresh
  world.members[name]?.map fun member =>
    let (result, world) := world.nodeStep name member step
    (result, world.settle channel)

/-- A step on what surrounds the nodes, with everything delivered afterwards. -/
def runWorldStep (world : World) (step : WorldStep) : StepResult × World :=
  let (result, world) := world.fresh.worldStep step
  (result, world.settle channel)

end Steps

end World

end PresenceTracker
