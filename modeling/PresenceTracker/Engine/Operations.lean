import PresenceTracker.Engine.Slots

/-!
# The operations of the status engine

Every change of a user's record runs through the same steps: load the record from the
cache or else the store, decide, write to the store, write to the cache, tell the other
nodes and the clients. Reads fill the cache. The sweep is one step on the store followed
by one step for each row it turned; a read that misses is a step on the store followed by
a step that fills the cache.

While tracking is disabled every operation succeeds without effect.

The sweep runs as a recurring job. Passes of one node never overlap: a pass that starts while
another one is still under way is skipped. Where tracking is disabled a pass is over before another
one can start.
-/

namespace PresenceTracker.Engine

/-- The result of a task: a task that was killed is reported as an internal failure. -/
def taskResult {α : Type} : Except StoreFault α → Except Failure α
  | .ok value => .ok value
  | .error (.refused failure) => .error failure
  | .error .killed => .error (.taskFailed "the task was killed")

/-- Loads a user's record, from the cache or else the store. A failing cache is as good as
an empty one; a failing store fails the load. -/
def load (outside : Outside) (user : String) : StateM Site (Except StoreFault Current) := do
  match ← cacheGet outside user with
  | .ok (some record) => return .ok ⟨record, true⟩
  | _ =>
    match ← storeGet outside user with
    | .ok record => return .ok ⟨record, true⟩
    | .error (.refused failure) =>
      if failure.isNotFound then return .ok (.missing user)
      else return .error (.refused failure)
    | .error .killed => return .error .killed

/-- Writes a record to the cache and tells the other nodes. If the cache refuses it, the
old entry is removed. -/
def cacheAndSync (outside : Outside) (record : Record) : StateM Site Unit := do
  match ← cachePut outside record with
  | .ok () => pure ()
  | .error _ => let _ ← cacheRemove outside record.userId
  publishToPeers fun _ => .updateStatus record

/-- Shows a record to the clients of this node and of all others. -/
def broadcast (record : Record) : StateM Site Unit := do
  showClients record.presence
  publish (.presenceChanged record.presence)

/-- Writes a record of `user` to the store: all of it where needed, otherwise just the
activity, and that only outside the window of the last write. A failure to write just the
activity is not reported. -/
def persist (outside : Outside) (user : String) (current : Current) (next : Record) :
    StateM Site (Except StoreFault Unit) := do
  if current.needsFullSave next then
    match next.validate with
    | .error failure => return .error (.refused failure)
    | .ok () =>
      match ← storeSave outside next with
      | .error fault => return .error fault
      | .ok () => notePersisted user; return .ok ()
  else if (← get).skipsWrite user then return .ok ()
  else
    match ← storeTouch outside next.userId next.lastActivity with
    | .ok () => notePersisted user; return .ok ()
    | .error (.refused _) => return .ok ()
    | .error .killed => return .error .killed

/-- Replaces the current record of `user` by another one, everywhere. -/
def commit (outside : Outside) (user : String) (current : Current) (next : Record) :
    StateM Site (Except StoreFault Record) := do
  if current.persisted && next = current.record then return .ok next
  else
    match ← persist outside user current next with
    | .error fault => return .error fault
    | .ok () =>
      cacheAndSync outside next
      if current.record.differsVisibly next then broadcast next
      return .ok next

/-- Loads, decides and commits. -/
def perform (outside : Outside) (user : String) (transition : Transition) :
    StateM Site (Except StoreFault Record) := do
  match ← load outside user with
  | .error fault => return .error fault
  | .ok current =>
    let site ← get
    match transition.decision current site.clock site.settings.awayTimeoutMs with
    | .error failure => return .error (.refused failure)
    | .ok .keep => return .ok current.record
    | .ok (.apply next) => commit outside user current next

/-- Runs a transition for a user. -/
def change (outside : Outside) (user : String) (transition : Transition) :
    StateM Site (Except Failure Record) := do
  if !(← get).settings.enabled then return .ok (.offlineDefault user)
  else
    match Record.checkUser user with
    | .error failure => return .error failure
    | .ok () =>
      let result ← perform outside user transition
      release user
      return taskResult result

/-- Caches a record that was read from the store, unless the cache holds one by now. -/
def backfill (outside : Outside) (record : Record) : StateM Site Unit := do
  match ← cacheGet outside record.userId with
  | .ok (some _) => pure ()
  | _ => let _ ← cachePut outside record
  release record.userId

/-- The status of a user. A failure of the store is reported as a missing status. -/
def read (outside : Outside) (user : String) : StateM Site (Except Failure Record) := do
  if !(← get).settings.enabled then return .ok (.offlineDefault user)
  else
    match Record.checkUser user with
    | .error failure => return .error failure
    | .ok () =>
      match ← cacheGet outside user with
      | .ok (some record) => return .ok record
      | _ =>
        match ← storeGet outside user with
        | .ok record => backfill outside record; return .ok record
        | .error (.refused failure) =>
          if failure.isNotFound then return .error failure else return .error (.noStatus user)
        | .error .killed => return taskResult (.error .killed)

/-- The status of a user, or the default record where there is none. -/
def readOrDefault (outside : Outside) (user : String) : StateM Site Record := do
  match ← read outside user with
  | .ok record => return record
  | .error _ => return .offlineDefault user

/-- What a read of several users has found so far: records by user, and the users to be
asked for from the store. -/
structure Gathered where
  /-- The records found. -/
  found : Table Record := ∅
  /-- The users not found, in order; a user asked for again is listed again. -/
  missing : List String := []

/-- Looks one of several users up in the cache. -/
def gatherOne (outside : Outside) (gathered : Gathered) (user : String) :
    StateM Site Gathered := do
  if gathered.found.contains user then return gathered
  else
    match ← cacheGet outside user with
    | .ok (some record) => return { gathered with found := gathered.found.insert user record }
    | _ => return { gathered with missing := gathered.missing ++ [user] }

/-- Caches a record that was read from the store, and counts it as found. -/
def gatherStored (outside : Outside) (found : Table Record) (record : Record) :
    StateM Site (Table Record) := do
  backfill outside record
  return found.insert record.userId record

/-- Takes the record of each user at the first place where the user stands. -/
def takeFirst : Table Record → List String → List Record
  | _, [] => []
  | found, user :: rest =>
    match found[user]? with
    | some record => record :: takeFirst (found.erase user) rest
    | none => takeFirst found rest

/-- The statuses of several users, each once, in the order asked for. Users without a
status are left out, and so is everything that a failing store does not give. -/
def readMany (outside : Outside) (users : List String) :
    StateM Site (Except Failure (List Record)) := do
  if !(← get).settings.enabled then return .ok []
  else
    let gathered ← users.foldlM (gatherOne outside) {}
    if gathered.missing.isEmpty then return .ok (takeFirst gathered.found users)
    else
      match ← storeGetMany outside gathered.missing with
      | .ok records =>
        let found ← records.foldlM (gatherStored outside) gathered.found
        return .ok (takeFirst found users)
      | .error (.refused _) => return .ok (takeFirst gathered.found users)
      | .error .killed => return taskResult (.error .killed)

/-- Sets the last activity of a known user in this node's cache only. Tells whether there
was a record. -/
def cacheActivity (outside : Outside) (user : String) (moment : Moment) :
    StateM Site (Except StoreFault Bool) := do
  match ← load outside user with
  | .error fault => return .error fault
  | .ok current =>
    if current.persisted then
      let _ ← cachePut outside { current.record with lastActivity := moment }
      return .ok true
    else return .ok false

/-- Sets the last activity of a known user in this node's cache only, and makes the user
away if that leaves the user idle for long enough. -/
def setLastActivity (outside : Outside) (user : String) (moment : Moment) :
    StateM Site (Except Failure Unit) := do
  if !(← get).settings.enabled then return .ok ()
  else
    match Record.checkUser user with
    | .error failure => return .error failure
    | .ok () =>
      let known ← cacheActivity outside user moment
      release user
      match known with
      | .error (.refused _) => return .ok ()
      | .error .killed => return taskResult (.error .killed)
      | .ok false => return .ok ()
      | .ok true => return (← change outside user (.away false)).map fun _ => ()

/-- Deletes a user's row, drops the user from the cache, and tells the other nodes. -/
def delete (outside : Outside) (user : String) : StateM Site (Except StoreFault Unit) := do
  match ← storeDelete outside user with
  | .error fault => return .error fault
  | .ok () =>
    let _ ← cacheRemove outside user
    publishToPeers fun topic => .invalidateCache topic (some user)
    forget user
    return .ok ()

/-- Removes a user from the store and every cache. -/
def remove (outside : Outside) (user : String) : StateM Site (Except Failure Unit) := do
  if !(← get).settings.enabled then return .ok ()
  else
    match Record.checkUser user with
    | .error failure => return .error failure
    | .ok () =>
      let result ← delete outside user
      release user
      return taskResult result

/-- Empties the cache of this node and of every other one. -/
def clearCaches (outside : Outside) : StateM Site (Except Failure Unit) := do
  if !(← get).settings.enabled then return .ok ()
  else
    match ← cachePurge outside with
    | .error failure => return .error failure
    | .ok () =>
      publishToPeers fun topic => .invalidateCache topic none
      return .ok ()

/-- Spreads one row that the sweep at `now` turned, unless the cache shows that the user
has changed since: a cached record that is no passed do-not-disturb is newer. -/
def propagate (outside : Outside) (now : Moment) (record : Record) : StateM Site Unit := do
  noteSwept record.userId now
  match ← cacheGet outside record.userId with
  | .ok (some cached) =>
    if cached.isExpired now then
      cacheAndSync outside record
      broadcast record
  | _ =>
    cacheAndSync outside record
    broadcast record
  release record.userId

/-- Restores every user whose deadline has passed: one step on the store, and then one for
each row it turned. -/
def sweep (outside : Outside) : StateM Site (Except StoreFault (List Record)) := do
  let now := (← get).clock
  match ← storeSweep outside now with
  | .error fault => return .error fault
  | .ok restored =>
    restored.forM (propagate outside now)
    pruneSlots now
    return .ok restored

/-- Restores every user whose deadline has passed. -/
def expire (outside : Outside) : StateM Site (Except Failure (List Record)) := do
  if !(← get).settings.enabled then return .ok []
  else return taskResult (← sweep outside)

/-- What one node does with an event of another one. -/
def receive (outside : Outside) : Event → StateM Site Unit
  | .updateStatus record => do let _ ← cachePut outside record
  | .presenceChanged presence => showClients presence
  | .invalidateCache topic key => do
    let site ← get
    if topic.needsPeers && topic = site.topic then
      match key with
      | some user => let _ ← cacheRemove outside user
      | none => let _ ← cachePurge outside

end PresenceTracker.Engine

namespace PresenceTracker

/-- An operation of the status engine. -/
inductive Operation where
  /-- Runs a transition for a user. -/
  | change (user : String) (transition : Transition)
  /-- The status of a user. -/
  | read (user : String)
  /-- The status of a user, or the default record. -/
  | readOrDefault (user : String)
  /-- The statuses of several users. -/
  | readMany (users : List String)
  /-- Sets a user's last activity in the node's cache. -/
  | setLastActivity (user : String) (moment : Moment)
  /-- Removes a user everywhere. -/
  | remove (user : String)
  /-- Empties the caches of all nodes. -/
  | clearCaches
  /-- Restores the users whose deadline has passed. -/
  | expire
  deriving DecidableEq, Repr

/-- What an operation gives back if it succeeds. -/
inductive Answer where
  /-- A record. -/
  | record (record : Record)
  /-- Several records. -/
  | records (records : List Record)
  /-- Nothing but the success. -/
  | done
  deriving DecidableEq, Repr

/-- Runs an operation on a node. -/
def Operation.run (outside : Outside) : Operation → StateM Site (Except Failure Answer)
  | change user transition => do
    return (← Engine.change outside user transition).map .record
  | read user => do return (← Engine.read outside user).map .record
  | readOrDefault user => do return .ok (.record (← Engine.readOrDefault outside user))
  | readMany users => do return (← Engine.readMany outside users).map .records
  | setLastActivity user moment => do
    return (← Engine.setLastActivity outside user moment).map fun _ => .done
  | remove user => do return (← Engine.remove outside user).map fun _ => .done
  | clearCaches => do return (← Engine.clearCaches outside).map fun _ => .done
  | expire => do return (← Engine.expire outside).map .records

/-- What one pass of the job reports. -/
inductive JobSummary where
  /-- The users who were restored. -/
  | restored (users : List String)
  /-- The pass was skipped. -/
  | skipped
  deriving DecidableEq, Repr

namespace Engine

/-- The name of the job. -/
def jobName : String := "dnd_expiry"

/-- One pass of the job, while another pass is under way or not. -/
def runJob (outside : Outside) (underWay : Bool) : StateM Site (Except Failure JobSummary) := do
  if underWay then return .ok .skipped
  else return (← expire outside).map fun records => .restored (records.map Record.userId)

end Engine

end PresenceTracker
