import PresenceTracker.Proofs.Engine.Calls

/-!
# Actions that are confined to one user

A node keeps three things of a user: the row, the frame in the cache and the slot. An action is
confined to a user if all it does to a node is to change this share of the user and to add to the
logs, and if both depend on nothing but the share, the clock, the settings and the topic. Single
calls about a user are confined to the user where calls fail alike whenever they are made and the
cache loses nothing, and actions one after the other are confined if each of them is. A record
that is cached under another user's name would lead astray, so the share has to name its user.
-/

namespace PresenceTracker

/-- Writes an entry, or takes it out. -/
def Table.put {α : Type} (table : Table α) (key : String) : Option α → Table α
  | some value => table.insert key value
  | none => table.erase key

namespace Table

variable {α : Type}

/-- What a look-up gives after a key was set or taken out. -/
theorem get?_put (table : Table α) (key other : String) (value? : Option α) :
    (table.put key value?)[other]? = if key = other then value? else table[other]? := by
  cases value? with
  | some value => exact get?_insert table key other value
  | none => exact get?_erase table key other

/-- Putting what is there changes nothing. -/
theorem put_get? {table : Table α} {key : String} {value? : Option α}
    (h : table[key]? = value?) : table.put key value? = table := by
  refine Std.ExtTreeMap.ext_getElem? fun other => ?_
  rw [get?_put]
  split
  · next hsame => rw [← hsame, h]
  · rfl

/-- Of two values put under one key the last one stays. -/
theorem put_put (table : Table α) (key : String) (first second : Option α) :
    (table.put key first).put key second = table.put key second := by
  refine Std.ExtTreeMap.ext_getElem? fun other => ?_
  simp only [get?_put]
  split <;> rfl

/-- Values under different keys may be put in any order. -/
theorem put_comm (table : Table α) {key other : String} (hne : key ≠ other)
    (first second : Option α) :
    (table.put key first).put other second = (table.put other second).put key first := by
  refine Std.ExtTreeMap.ext_getElem? fun third => ?_
  simp only [get?_put]
  split
  · next hother => rw [if_neg fun hkey => hne (hkey.trans hother.symm)]
  · rfl

end Table

/-- Counts of look-ups, one after the other. -/
def Tally.add (tally other : Tally) : Tally :=
  ⟨tally.hits + other.hits, tally.misses + other.misses, tally.errors + other.errors⟩

/-- One look-up counts the same before others and by itself. -/
theorem Tally.add_count (tally : Tally) (found : Except Failure (Option Record)) :
    tally.add (Tally.count {} found) = tally.count found := by
  cases found with
  | error failure => rfl
  | ok record? => cases record? <;> rfl

/-- Counts may be added up in any grouping. -/
theorem Tally.add_assoc (tally other third : Tally) :
    (tally.add other).add third = tally.add (other.add third) := by
  simp only [add, Nat.add_assoc]

/-- Counts of different users may be added in either order. -/
theorem Tally.add_right_comm (tally other third : Tally) :
    (tally.add other).add third = (tally.add third).add other := by
  simp only [add, Nat.add_right_comm]

/-- Calls fail alike whenever they are made, and no entry of the cache vanishes. -/
structure Outside.Steady (outside : Outside) : Prop where
  /-- A call to the store fails always or never. -/
  store : ∀ count other call, outside.storeFault count call = outside.storeFault other call
  /-- A call to the cache fails always or never. -/
  cache : ∀ count other call, outside.cacheFault count call = outside.cacheFault other call
  /-- No entry of the cache vanishes. -/
  stays : ∀ count user, outside.vanishes count user = false

/-- Where nothing fails calls fail alike whenever they are made. -/
theorem Outside.calm_steady : calm.Steady := ⟨fun _ _ _ => rfl, fun _ _ _ => rfl, fun _ _ => rfl⟩

/-- What a node keeps of one user. -/
structure Share where
  /-- The user's row. -/
  row : Option Record
  /-- The frame in the cache. -/
  frame : Option Bytes
  /-- When the node last wrote the row, if it keeps track of the user. -/
  slot : Option Moment
  deriving DecidableEq

/-- The record that the frame in the cache decodes to. -/
def Share.cached? (share : Share) : Option Record :=
  share.frame.bind fun frame => (FrameCodec.record.decode frame).toOption

/-- The row and the cached record, if there are any, name their user. -/
structure Share.Names (user : String) (share : Share) : Prop where
  /-- The row names the user. -/
  row : ∀ row, share.row = some row → row.userId = user
  /-- The cached record names the user. -/
  cached : ∀ record, share.cached? = some record → record.userId = user

/-- What an action adds to the logs of a node. -/
structure Trace where
  /-- The number of calls. -/
  calls : Nat := 0
  /-- The look-ups that were counted. -/
  tally : Tally := {}
  /-- The calls to the store. -/
  asked : List StoreCall := []
  /-- The messages published. -/
  published : List Event := []
  /-- The events shown. -/
  shown : List PresenceEvent := []

/-- What two actions one after the other add. -/
def Trace.append (trace other : Trace) : Trace where
  calls := trace.calls + other.calls
  tally := trace.tally.add other.tally
  asked := trace.asked ++ other.asked
  published := trace.published ++ other.published
  shown := trace.shown ++ other.shown

namespace Site

/-- What a node keeps of a user. -/
def share (site : Site) (user : String) : Share :=
  ⟨site.store[user]?, site.cache[user]?, site.slots[user]?⟩

/-- The node with another share of a user, and with more in its logs. -/
def patch (site : Site) (user : String) (share : Share) (trace : Trace) : Site :=
  { site with
    store := site.store.put user share.row
    cache := site.cache.put user share.frame
    slots := site.slots.put user share.slot
    calls := site.calls + trace.calls
    tally := site.tally.add trace.tally
    asked := site.asked ++ trace.asked
    published := site.published ++ trace.published
    shown := site.shown ++ trace.shown }

/-- Two nodes keep the same of a user, and have the same clock, settings and topic. -/
structure Alike (user : String) (site twin : Site) : Prop where
  /-- They keep the same of the user. -/
  share : twin.share user = site.share user
  /-- Their clocks read the same. -/
  clock : twin.clock = site.clock
  /-- Their settings are the same. -/
  settings : twin.settings = site.settings
  /-- The topics of their caches are the same. -/
  topic : twin.topic = site.topic

variable {site twin : Site} {user : String}

/-- A patch of one user's share leaves the shares of the others. -/
theorem share_patch (site : Site) (user other : String) (share : Share) (trace : Trace) :
    (site.patch user share trace).share other =
      if user = other then share else site.share other := by
  simp only [Site.share, patch, Table.get?_put]
  split <;> rfl

/-- Of two patches of a user's share the later one stays, and both traces are left. -/
theorem patch_patch (site : Site) (user : String) (share later : Share) (trace next : Trace) :
    (site.patch user share trace).patch user later next =
      site.patch user later (trace.append next) := by
  simp only [patch, Trace.append, Table.put_put, Tally.add_assoc, List.append_assoc, Nat.add_assoc]

namespace Alike

/-- A site is like itself for every user. -/
theorem refl (user : String) (site : Site) : site.Alike user site := ⟨rfl, rfl, rfl, rfl⟩

/-- Sites that are alike for a user have the same row. -/
theorem row (h : site.Alike user twin) : twin.store[user]? = site.store[user]? :=
  congrArg Share.row h.share

/-- They have the same frame in their caches. -/
theorem frame (h : site.Alike user twin) : twin.cache[user]? = site.cache[user]? :=
  congrArg Share.frame h.share

/-- They have written the user's row at the same time. -/
theorem slot (h : site.Alike user twin) : twin.slots[user]? = site.slots[user]? :=
  congrArg Share.slot h.share

/-- So they agree on whether the next write may be skipped. -/
theorem skipsWrite (h : site.Alike user twin) : twin.skipsWrite user = site.skipsWrite user := by
  simp only [Site.skipsWrite, h.slot, h.clock, h.settings]

/-- Nodes that are alike are so after the same change. -/
theorem patch (h : site.Alike user twin) (share : Share) (trace : Trace) :
    (site.patch user share trace).Alike user (twin.patch user share trace) where
  share := by simp only [share_patch, if_true]
  clock := h.clock
  settings := h.settings
  topic := h.topic

/-- A change of what is kept of another user leaves a node alike. -/
theorem of_patch {other : String} (hne : other ≠ user) (site : Site) (share : Share)
    (trace : Trace) : site.Alike user (site.patch other share trace) :=
  ⟨by rw [share_patch, if_neg hne], rfl, rfl, rfl⟩

end Alike

/-- A node at the moment of a call, where nothing vanishes. -/
theorem atCall_steady {outside : Outside} (hsteady : outside.Steady) (site : Site) :
    site.atCall outside = { site with calls := site.calls + 1 } := by
  have hcache : (site.cache.filter fun user _ => !outside.vanishes site.calls user) =
      site.cache := by
    refine Std.ExtTreeMap.ext_getElem? fun user => ?_
    rw [Table.get?_filter, hsteady.stays]
    cases site.cache[user]? <;> rfl
  rw [atCall, hcache]

/-- Where the share of a user stays the same only the logs change. -/
theorem Alike.patch_share (h : site.Alike user twin) (trace : Trace) :
    twin.patch user (site.share user) trace =
      { twin with
        calls := twin.calls + trace.calls
        tally := twin.tally.add trace.tally
        asked := twin.asked ++ trace.asked
        published := twin.published ++ trace.published
        shown := twin.shown ++ trace.shown } := by
  simp only [Site.patch, Site.share, Table.put_get? h.row, Table.put_get? h.frame,
    Table.put_get? h.slot]

end Site

open Site

/-- An action is confined to a user: on every node that is alike it gives the same value and
changes only what is kept of the user, in the same way, with the same additions to the logs. What
is kept names the user afterwards. -/
def Confined {α : Type} (user : String) (action : StateM Site α) (site : Site) : Prop :=
  ∃ value share trace, share.Names user ∧
    ∀ twin, site.Alike user twin → action.run twin = (value, twin.patch user share trace)

namespace Confined

variable {α β : Type} {user : String} {site : Site}

/-- To give a value is confined to anybody. -/
theorem pure (hnames : (site.share user).Names user) (value : α) :
    Confined user (pure value) site := by
  refine ⟨value, site.share user, {}, hnames, fun twin halike => ?_⟩
  rw [halike.patch_share]
  simp only [Tally.add, List.append_nil, Nat.add_zero]
  rfl

/-- What follows a look at the node may depend on the share, the clock, the settings and the
topic. -/
theorem get_bind {next : Site → StateM Site β} (h : Confined user (next site) site)
    (hsame : ∀ twin, site.Alike user twin → next twin = next site) :
    Confined user (get >>= next) site := by
  obtain ⟨value, share, trace, hnames, hrun⟩ := h
  refine ⟨value, share, trace, hnames, fun twin halike => ?_⟩
  show (next twin).run twin = _
  rw [hsame twin halike, hrun twin halike]

/-- Of two actions one after the other the second one starts where the first one ends, and what
the first one ensures may be used. -/
theorem bind_of {action : StateM Site α} {next : α → StateM Site β} {between : α → Site → Prop}
    (hfirst : Confined user action site) (hensures : Ensures action site between)
    (hnext : ∀ value later, between value later → (later.share user).Names user →
      Confined user (next value) later) :
    Confined user (action >>= next) site := by
  obtain ⟨value, share, trace, hnames, hrun⟩ := hfirst
  rw [Ensures, hrun site (.refl user site)] at hensures
  have hpatched : ((site.patch user share trace).share user).Names user := by
    rw [share_patch, if_pos rfl]
    exact hnames
  obtain ⟨last, final, more, hfinal, hrest⟩ := hnext _ _ hensures hpatched
  refine ⟨last, final, trace.append more, hfinal, fun twin halike => ?_⟩
  rw [StateT.run_bind, hrun twin halike]
  exact (hrest _ (halike.patch share trace)).trans (congrArg _ (patch_patch ..))

/-- Of two actions one after the other the second one starts where the first one ends. -/
theorem bind {action : StateM Site α} {next : α → StateM Site β}
    (hfirst : Confined user action site)
    (hnext : ∀ value later, (later.share user).Names user → Confined user (next value) later) :
    Confined user (action >>= next) site :=
  hfirst.bind_of (ensures_run action site) fun value later _ => hnext value later

end Confined

namespace Engine

variable {outside : Outside} {user : String} {site : Site}

/-- A look-up of a user is confined to the user. -/
theorem cacheGet_confined (hsteady : outside.Steady) (hnames : (site.share user).Names user) :
    Confined user (cacheGet outside user) site := by
  have hlook : ∀ twin, site.Alike user twin →
      Site.lookUpResult { twin with calls := twin.calls + 1 } user = site.lookUpResult user := by
    intro twin halike
    simp only [lookUpResult, halike.frame]
  let found := ((cacheGet outside user).run site).1
  refine ⟨found, site.share user, { calls := 1, tally := Tally.count {} found }, hnames,
    fun twin halike => ?_⟩
  rw [halike.patch_share]
  simp only [found, cacheGet, StateT.run, atCall_steady hsteady,
    hsteady.cache twin.calls site.calls, hlook twin halike, hlook site (.refl user site),
    Tally.add_count, List.append_nil]

/-- A write of a user's entry is confined to the user. -/
theorem cachePut_confined (hsteady : outside.Steady) {record : Record}
    (hrecord : record.userId = user) (hnames : (site.share user).Names user) :
    Confined user (cachePut outside record) site := by
  subst hrecord
  cases hfault : outside.cacheFault site.calls (.put record) with
  | some failure =>
    refine ⟨.error failure, site.share record.userId, { calls := 1 }, hnames,
      fun twin halike => ?_⟩
    rw [halike.patch_share]
    simp only [cachePut, StateT.run, atCall_steady hsteady, hsteady.cache twin.calls site.calls,
      hfault, List.append_nil]
    rfl
  | none =>
    refine ⟨.ok (),
      { site.share record.userId with frame := some (FrameCodec.record.encode record) },
      { calls := 1 }, ⟨hnames.row, fun other hcached => ?_⟩, fun twin halike => ?_⟩
    · rw [Share.cached?, Option.bind_some, FrameCodec.decode_encode_record] at hcached
      cases hcached
      rfl
    · simp only [cachePut, StateT.run, atCall_steady hsteady, hsteady.cache twin.calls site.calls,
        hfault, Site.patch, Site.share, Table.put_get? halike.row, Table.put_get? halike.slot,
        List.append_nil]
      rfl

/-- A removal of a user's entry is confined to the user. -/
theorem cacheRemove_confined (hsteady : outside.Steady) (hnames : (site.share user).Names user) :
    Confined user (cacheRemove outside user) site := by
  cases hfault : outside.cacheFault site.calls (.remove user) with
  | some failure =>
    refine ⟨.error failure, site.share user, { calls := 1 }, hnames, fun twin halike => ?_⟩
    rw [halike.patch_share]
    simp only [cacheRemove, StateT.run, atCall_steady hsteady, hsteady.cache twin.calls site.calls,
      hfault, List.append_nil]
    rfl
  | none =>
    refine ⟨.ok (), { site.share user with frame := none }, { calls := 1 },
      ⟨hnames.row, fun _ hcached => (by cases hcached)⟩, fun twin halike => ?_⟩
    simp only [cacheRemove, StateT.run, atCall_steady hsteady, hsteady.cache twin.calls site.calls,
      hfault, Site.patch, Site.share, Table.put_get? halike.row, Table.put_get? halike.slot,
      List.append_nil]
    rfl

/-- A call to the store that makes of the user's row what a rule makes of it is confined to the
user. -/
theorem storeCall_confined {α : Type} (hsteady : outside.Steady)
    (hnames : (site.share user).Names user) (call : StoreCall)
    {run : Store → Except Failure α × Store}
    (rule : Option Record → Except Failure α × Option Record)
    (hrun : ∀ store : Store, run store =
      ((rule store[user]?).1, store.put user (rule store[user]?).2))
    (hrule : ∀ row, (rule site.store[user]?).2 = some row → row.userId = user) :
    Confined user (storeCall outside call run) site := by
  cases hfault : outside.storeFault site.calls call with
  | some fault =>
    refine ⟨.error fault, site.share user, { calls := 1, asked := [call] }, hnames,
      fun twin halike => ?_⟩
    rw [halike.patch_share]
    simp only [storeCall, StateT.run, atCall_steady hsteady, hsteady.store twin.calls site.calls,
      hfault, List.append_nil]
    rfl
  | none =>
    refine ⟨(rule site.store[user]?).1.mapError .refused,
      { site.share user with row := (rule site.store[user]?).2 }, { calls := 1, asked := [call] },
      ⟨hrule, hnames.cached⟩, fun twin halike => ?_⟩
    simp only [storeCall, StateT.run, atCall_steady hsteady, hsteady.store twin.calls site.calls,
      hfault, hrun, halike.row, Site.patch, Site.share, Table.put_get? halike.frame,
      Table.put_get? halike.slot, List.append_nil]
    rfl

/-- A read of a user's row is confined to the user. -/
theorem storeGet_confined (hsteady : outside.Steady) (hnames : (site.share user).Names user) :
    Confined user (storeGet outside user) site := by
  refine storeCall_confined hsteady hnames (.get user)
    (fun row? => (row?.elim (.error (.noStatus user)) .ok, row?)) (fun store => ?_) hnames.row
  rw [Table.put_get? rfl, Store.find]
  cases store[user]? <;> rfl

/-- A full write of a user's row is confined to the user. -/
theorem storeSave_confined (hsteady : outside.Steady) {record : Record}
    (hnames : (site.share record.userId).Names record.userId) :
    Confined record.userId (storeSave outside record) site := by
  cases hcheck : record.validate with
  | ok _ =>
    refine storeCall_confined hsteady hnames (.save record) (fun _ => (.ok (), some record))
      (fun store => ?_) ?_
    · rw [Store.save, hcheck]
      rfl
    · rintro row hrow
      cases hrow
      rfl
  | error failure =>
    refine storeCall_confined hsteady hnames (.save record) (fun row? => (.error failure, row?))
      (fun store => ?_) hnames.row
    rw [Store.save, hcheck, Table.put_get? rfl]
    rfl

/-- A write of a user's activity is confined to the user. -/
theorem storeTouch_confined (hsteady : outside.Steady) (hnames : (site.share user).Names user)
    (moment : Moment) : Confined user (storeTouch outside user moment) site := by
  refine storeCall_confined hsteady hnames (.touch user moment)
    (fun row? => (.ok (), row?.map fun row => { row with lastActivity := moment }))
    (fun store => ?_) fun row hrow => ?_
  · have htouch : store.touch user moment =
        store.put user (store[user]?.map fun row => { row with lastActivity := moment }) := by
      refine Std.ExtTreeMap.ext_getElem? fun other => ?_
      rw [Store.get?_touch, Table.get?_put]
      split
      · next hsame => rw [hsame]
      · rfl
    rw [htouch]
  · obtain ⟨before, hbefore, rfl⟩ := Option.map_eq_some_iff.mp hrow
    exact hnames.row before hbefore

/-- A deletion of a user's row is confined to the user. -/
theorem storeDelete_confined (hsteady : outside.Steady) (hnames : (site.share user).Names user) :
    Confined user (storeDelete outside user) site :=
  storeCall_confined hsteady hnames (.delete user) (fun _ => (.ok (), none)) (fun _ => rfl)
    fun _ hrow => by cases hrow

/-- A change of a user's slot is confined to the user. -/
theorem slot_confined (hnames : (site.share user).Names user) {change : Site → Site}
    (rule : Option Moment)
    (hchange : ∀ twin, site.Alike user twin →
      change twin = { twin with slots := twin.slots.put user rule }) :
    Confined user (modify change : StateM Site Unit) site := by
  refine ⟨(), { site.share user with slot := rule }, {}, ⟨hnames.row, hnames.cached⟩,
    fun twin halike => ?_⟩
  show ((), change twin) = _
  simp only [hchange twin halike, Site.patch, Site.share, Table.put_get? halike.row,
    Table.put_get? halike.frame, List.append_nil]
  rfl

/-- That a row was written is noted for its user only. -/
theorem notePersisted_confined (hnames : (site.share user).Names user) :
    Confined user (notePersisted user) site :=
  slot_confined hnames (some site.clock) fun twin halike => by rw [halike.clock]; rfl

/-- To forget a user changes that user's slot only. -/
theorem forget_confined (hnames : (site.share user).Names user) :
    Confined user (forget user) site :=
  slot_confined hnames none fun _ _ => rfl

/-- The end of an operation looks at the user's slot only, and may close it. -/
theorem release_confined (hnames : (site.share user).Names user) :
    Confined user (release user) site := by
  refine slot_confined hnames (if site.skipsWrite user then site.slots[user]? else none)
    fun twin halike => ?_
  rw [halike.skipsWrite]
  split
  · rw [Table.put_get? halike.slot]
  · rfl

/-- Publishing is confined to any user. -/
theorem publish_confined (hnames : (site.share user).Names user) (event : Event) :
    Confined user (publish event) site := by
  refine ⟨(), site.share user, { published := [event] }, hnames, fun twin halike => ?_⟩
  rw [halike.patch_share]
  simp only [List.append_nil]
  rfl

/-- What is told to the peers depends on the topic alone. -/
theorem publishToPeers_confined (hnames : (site.share user).Names user) (event : Topic → Event) :
    Confined user (publishToPeers event) site := by
  refine .get_bind ?_ fun twin halike => by rw [halike.topic]
  split
  · exact publish_confined hnames _
  · exact .pure hnames ()

/-- What is shown to clients is left behind and never read. -/
theorem showClients_confined (hnames : (site.share user).Names user) (presence : PresenceEvent) :
    Confined user (showClients presence) site := by
  refine ⟨(), site.share user, { shown := [presence] }, hnames, fun twin halike => ?_⟩
  rw [halike.patch_share]
  simp only [List.append_nil]
  rfl

end Engine

end PresenceTracker
