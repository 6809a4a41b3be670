import PresenceTracker.Proofs.Engine.Holding
import PresenceTracker.Proofs.Record.Timeless

/-!
# A node without a cache

A mirror follows a node as if the node had no cache, skipped no writes and knew no last
activities: it loads from the rows, and what it decides becomes a row. A node whose store works
is followed by its mirror as long as the cache shows nothing that the mirror does not have. That
is so whether the cache never works, or works now and then but for removals, which have to.
-/

namespace PresenceTracker

/-- What is followed of a node, with all last activities at the epoch. -/
structure Mirror where
  /-- The reading of the clock. -/
  clock : Moment
  /-- The settings in force. -/
  settings : TrackingSettings
  /-- The rows of the store. -/
  rows : Store
  /-- What the cache shows of a user, if it shows anything. -/
  view : String → Option Record
  /-- The events shown so far. -/
  shown : List PresenceEvent

namespace Mirror

/-- The cache shows the rows, if anything. -/
def Settled (mirror : Mirror) : Prop := ∀ user, mirror.view user = mirror.rows[user]?

/-- The mirror with other rows, which the cache shows if anything, and with more events. -/
def settle (mirror : Mirror) (rows : Store) (events : List PresenceEvent) : Mirror :=
  { mirror with rows, view := fun user => rows[user]?, shown := mirror.shown ++ events }

/-- The mirror with other rows, which the cache need not show yet. -/
def withRows (mirror : Mirror) (rows : Store) : Mirror := { mirror with rows }

/-- The mirror with more events. -/
def tell (mirror : Mirror) (events : List PresenceEvent) : Mirror :=
  { mirror with shown := mirror.shown ++ events }

/-- The mirror with a record that the cache shows of its user, if anything. -/
def see (mirror : Mirror) (record : Record) : Mirror :=
  { mirror with
    view := fun user => if record.userId = user then some record else mirror.view user }

/-- The record of a user as a transition begins. -/
def current (mirror : Mirror) (user : String) : Current :=
  match mirror.rows[user]? with
  | some record => ⟨record, true⟩
  | none => .missing user

/-- Puts a record in the place of the current one, which is checked where all of it is to be
written. -/
def replace (mirror : Mirror) (current : Current) (next : Record) :
    Except Failure Record × Mirror :=
  match if current.needsFullSave next then next.validate else .ok () with
  | .error failure => (.error failure, mirror)
  | .ok () =>
    (.ok next, mirror.settle (mirror.rows.insert next.userId next)
      (if current.record.differsVisibly next then [next.presence] else []))

/-- Loads, decides and replaces. -/
def perform (mirror : Mirror) (user : String) (transition : Transition) :
    Except Failure Record × Mirror :=
  match (transition.decision (mirror.current user) mirror.clock
    mirror.settings.awayTimeoutMs).map Decision.timeless with
  | .error failure => (.error failure, mirror)
  | .ok .keep => (.ok (mirror.current user).record, mirror)
  | .ok (.apply next) => mirror.replace (mirror.current user) next

/-- Runs a transition for a user. -/
def change (mirror : Mirror) (user : String) (transition : Transition) :
    Except Failure Record × Mirror :=
  match Record.checkUser user with
  | .error failure => (.error failure, mirror)
  | .ok () => mirror.perform user transition

/-- The status of a user. -/
def read (mirror : Mirror) (user : String) : Except Failure Record :=
  match Record.checkUser user with
  | .error failure => .error failure
  | .ok () => mirror.rows.find user

/-- The statuses of several users, each once. -/
def readMany (mirror : Mirror) (users : List String) : List Record :=
  Engine.takeFirst mirror.rows users

/-- Removes a user. -/
def remove (mirror : Mirror) (user : String) : Except Failure Unit × Mirror :=
  match Record.checkUser user with
  | .error failure => (.error failure, mirror)
  | .ok () => (.ok (), mirror.settle (mirror.rows.delete user) [])

/-- Restores every user whose deadline has passed, and shows the turned rows in the order in
which they are given back. -/
def expire (mirror : Mirror) (turned : List Record) : Mirror :=
  mirror.settle (mirror.rows.sweep mirror.clock) (turned.map Record.presence)

/-- The mirror without the events of the past. -/
def hush (mirror : Mirror) : Mirror := { mirror with shown := [] }

/-- The mirror in the middle of a sweep, when the cache shows the rows that are spread already
and of all other users what it showed before, if anything. -/
def sweeping (mirror : Mirror) (spread : List Record) : Mirror :=
  { mirror with
    rows := mirror.rows.sweep mirror.clock
    view := fun user => if user ∈ spread.map Record.userId then
      (mirror.rows.sweep mirror.clock)[user]? else mirror.rows[user]?
    shown := mirror.shown ++ spread.map Record.presence }

variable {mirror : Mirror}

theorem settled_settle (mirror : Mirror) (rows : Store) (events : List PresenceEvent) :
    (mirror.settle rows events).Settled := fun _ => rfl

theorem eq_of_view {view : String → Option Record} (h : ∀ user, view user = mirror.view user) :
    { mirror with view } = mirror := by
  rw [funext h]

/-- What the cache shows already is nothing new. -/
theorem see_eq {record : Record} (h : mirror.view record.userId = some record) :
    mirror.see record = mirror := by
  refine eq_of_view fun user => ?_
  split
  · next hsame => rw [← hsame, h]
  · rfl

theorem tell_nil (mirror : Mirror) : mirror.tell [] = mirror := by
  rw [tell, List.append_nil]

/-- Once the cache shows the new row of a user it shows the rows again. -/
theorem see_settles (h : mirror.Settled) (record : Record) (events : List PresenceEvent) :
    ((mirror.withRows (mirror.rows.insert record.userId record)).see record).tell events =
      mirror.settle (mirror.rows.insert record.userId record) events := by
  have hview : (fun user => if record.userId = user then some record else mirror.view user) =
      fun user => (mirror.rows.insert record.userId record)[user]? := by
    funext user
    rw [Table.get?_insert, h user]
  simp only [tell, see, withRows, settle, hview]

/-- A row that is written again changes nothing. -/
theorem insert_same {user : String} {record : Record} (hrow : mirror.rows[user]? = some record) :
    mirror.rows.insert user record = mirror.rows := by
  refine Std.ExtTreeMap.ext_getElem? fun other => ?_
  rw [Table.get?_insert]
  split
  · next hsame => rw [← hsame, hrow]
  · rfl

/-- A row that is written again settles into the same mirror. -/
theorem settle_same (h : mirror.Settled) {user : String} {record : Record}
    (hrow : mirror.rows[user]? = some record) :
    mirror.settle (mirror.rows.insert user record) [] = mirror := by
  rw [settle, insert_same hrow, List.append_nil]
  exact eq_of_view fun user => (h user).symm

/-- Before the first row is spread the cache shows what it showed before the sweep. -/
theorem sweeping_nil (h : mirror.Settled) :
    mirror.sweeping [] = mirror.withRows (mirror.rows.sweep mirror.clock) := by
  have hview : (fun user => mirror.rows[user]?) = mirror.view := funext fun user => (h user).symm
  simp only [sweeping, List.map_nil, List.not_mem_nil, if_false, List.append_nil, hview, withRows]

/-- Spreading a turned row is showing it, in the cache and to clients. -/
theorem sweeping_append (hkeyed : mirror.rows.Keyed) (spread : List Record) {record : Record}
    (hturned : record ∈ mirror.rows.expired mirror.clock) :
    mirror.sweeping (spread ++ [record]) =
      ((mirror.sweeping spread).see record).tell [record.presence] := by
  have hview : (mirror.sweeping (spread ++ [record])).view =
      ((mirror.sweeping spread).see record).view := by
    funext user
    simp only [sweeping, see, List.map_append, List.map_cons, List.map_nil, List.mem_append,
      List.mem_singleton]
    by_cases hsame : record.userId = user
    · rw [if_pos (Or.inr hsame.symm), if_pos hsame, ← hsame]
      exact Store.get?_sweep_of_mem_expired hkeyed hturned
    · rw [if_neg hsame]
      congr 1
      exact propext (or_iff_left fun heq => hsame heq.symm)
  have hshown : mirror.shown ++ (spread ++ [record]).map Record.presence =
      mirror.shown ++ spread.map Record.presence ++ [record.presence] := by
    rw [List.map_append, List.append_assoc]
    rfl
  simp only [tell, see, sweeping] at hview ⊢
  rw [hview, hshown]

/-- Once all turned rows are spread, in any order, the cache shows the rows again. -/
theorem sweeping_perm (hkeyed : mirror.rows.Keyed) {turned : List Record}
    (hturned : turned.Perm (mirror.rows.expired mirror.clock)) :
    mirror.sweeping turned = mirror.expire turned := by
  have hview : (mirror.sweeping turned).view =
      fun user => (mirror.rows.sweep mirror.clock)[user]? := by
    funext user
    simp only [sweeping]
    split
    · rfl
    · next hkept =>
      rw [(hturned.map Record.userId).mem_iff] at hkept
      exact (Store.get?_sweep_of_not_mem hkeyed hkept).symm
  simp only [sweeping, expire, settle] at hview ⊢
  rw [hview]

/-- A record that exists when a transition begins is the mirror's row. -/
theorem row_of_current {user : String} {current : Current}
    (h : current.timeless = mirror.current user) (hpersisted : current.persisted = true) :
    mirror.rows[user]? = some current.record.timeless := by
  unfold Mirror.current at h
  cases hrow : mirror.rows[user]? with
  | some row =>
    rw [hrow] at h
    exact congrArg some (congrArg Current.record h).symm
  | none =>
    rw [hrow] at h
    have hmissing : current.persisted = false := congrArg Current.persisted h
    rw [hpersisted] at hmissing
    cases hmissing

end Mirror

/-- No call to the store fails, and either no call to the cache works, or removals from it
always do. -/
structure Outside.Bears (outside : Outside) : Prop where
  /-- No call to the store fails. -/
  store : ∀ count call, outside.storeFault count call = none
  /-- Either no call to the cache works, or removals from it always do. -/
  cache : (∀ count call, outside.cacheFault count call ≠ none) ∨ outside.RemovesWork

/-- A node does what its mirror does. The mirror may begin without the events of the past. -/
structure Site.Mirrors (outside : Outside) (past : List PresenceEvent) (mirror : Mirror)
    (site : Site) : Prop where
  /-- The clock is the same. -/
  clock : site.clock = mirror.clock
  /-- The settings are the same. -/
  settings : site.settings = mirror.settings
  /-- The rows are the same but for the last activities. -/
  rows : site.store.timeless = mirror.rows
  /-- Every row stands under its user. -/
  keyed : site.store.Keyed
  /-- No row was last active before the epoch. -/
  active : site.store.Every fun _ row => 0 ≤ row.lastActivity
  /-- What the cache shows of a user the mirror has, and it was not last active before the
  epoch. -/
  cached : ∀ user record, site.cached? user = some record →
    mirror.view user = some record.timeless ∧ 0 ≤ record.lastActivity
  /-- Clients were shown the same since then but for the last activities. -/
  shown : site.shown.map PresenceEvent.timeless = past ++ mirror.shown
  /-- A cache that never works is empty. -/
  empty : (∀ count call, outside.cacheFault count call ≠ none) → ∀ user, site.cached? user = none

namespace Site.Mirrors

variable {outside : Outside} {past : List PresenceEvent} {mirror : Mirror} {site later : Site}

/-- The mirror stays where only calls were made that changed nothing. -/
theorem fades (h : site.Mirrors outside past mirror) (hfades : site.Fades outside later) :
    later.Mirrors outside past mirror where
  clock := hfades.clock.trans h.clock
  settings := hfades.settings.trans h.settings
  rows := hfades.store ▸ h.rows
  keyed := hfades.store ▸ h.keyed
  active := hfades.store ▸ h.active
  cached user record hcached := h.cached user record (hfades.cached? hcached)
  shown := hfades.shown ▸ h.shown
  empty hfails user := Option.eq_none_iff_forall_ne_some.mpr fun record hcached =>
    Option.eq_none_iff_forall_ne_some.mp (h.empty hfails user) record (hfades.cached? hcached)

/-- The mirror does not see the bookkeeping on writes. -/
theorem tracks (h : site.Mirrors outside past mirror) (htracks : site.Tracks later) :
    later.Mirrors outside past mirror := by
  obtain ⟨slots, rfl⟩ := htracks
  exact { h with }

/-- The mirror may have another view if it still has what the cache shows. -/
theorem review (h : site.Mirrors outside past mirror) {view : String → Option Record}
    (hview : ∀ user record, site.cached? user = some record → view user = some record.timeless) :
    site.Mirrors outside past { mirror with view } :=
  { h with cached := fun user record hcached =>
      ⟨hview user record hcached, (h.cached user record hcached).2⟩ }

/-- The mirror follows when the rows change. -/
theorem withStore (h : site.Mirrors outside past mirror) {store : Store} (hkeyed : store.Keyed)
    (hactive : store.Every fun _ row => 0 ≤ row.lastActivity) :
    (site.withStore store).Mirrors outside past (mirror.withRows store.timeless) :=
  { h with rows := rfl, keyed := hkeyed, active := hactive }

/-- The mirror follows when the cache is made to show a record. -/
theorem hold (h : site.Mirrors outside past mirror) (hremoves : outside.RemovesWork)
    {record : Record} (hactive : 0 ≤ record.lastActivity) :
    (site.hold record).Mirrors outside past (mirror.see record.timeless) :=
  { h with
    cached := fun user other hcached => by
      rw [cached?_hold] at hcached
      simp only [Mirror.see]
      split at hcached
      · next hsame =>
        cases hcached
        exact ⟨if_pos hsame, hactive⟩
      · next hother =>
        rw [if_neg (show ¬record.timeless.userId = user from hother)]
        exact h.cached user other hcached
    empty := fun hfails => absurd (hremoves 0 "") (hfails 0 _) }

/-- The mirror stays where the cache shows less. -/
theorem loses (h : site.Mirrors outside past mirror) (hrest : ∃ cache, later = { site with cache })
    (hless : ∀ user record, later.cached? user = some record → site.cached? user = some record) :
    later.Mirrors outside past mirror := by
  obtain ⟨cache, rfl⟩ := hrest
  exact
    { h with
      cached := fun user record hcached => h.cached user record (hless user record hcached)
      empty := fun hfails user => Option.eq_none_iff_forall_ne_some.mpr fun record hcached =>
        Option.eq_none_iff_forall_ne_some.mp (h.empty hfails user) record
          (hless user record hcached) }

/-- The mirror stays where the cache loses a user. -/
theorem drop (h : site.Mirrors outside past mirror) (user : String) :
    (site.drop user).Mirrors outside past mirror := by
  refine h.loses ⟨_, rfl⟩ fun other record hcached => ?_
  rw [cached?_drop] at hcached
  split at hcached
  · cases hcached
  · exact hcached

/-- A row of the mirror is the user's row but for the last activity. -/
theorem row (h : site.Mirrors outside past mirror) {user : String} {record : Record}
    (hrow : mirror.rows[user]? = some record) :
    ∃ row : Record, site.store[user]? = some row ∧ row.timeless = record := by
  rw [← h.rows, Store.get?_timeless] at hrow
  exact Option.map_eq_some_iff.mp hrow

/-- The rows of the mirror stand under their users. -/
theorem rowsKeyed (h : site.Mirrors outside past mirror) : mirror.rows.Keyed := by
  intro user record hrow
  obtain ⟨row, hstored, rfl⟩ := h.row hrow
  exact h.keyed user row hstored

/-- A record of the mirror stands under its user. -/
theorem userId (h : site.Mirrors outside past mirror) {user : String} {record : Record}
    (hrow : mirror.rows[user]? = some record.timeless) : record.userId = user :=
  h.rowsKeyed user record.timeless hrow

end Site.Mirrors

namespace Engine

open Site

variable {outside : Outside} {past : List PresenceEvent} {mirror : Mirror} {site : Site}

/-- A look-up finds what the mirror has. -/
theorem cacheGet_mirrors (h : site.Mirrors outside past mirror) (user : String) :
    Ensures (cacheGet outside user) site fun found later => later.Mirrors outside past mirror ∧
      ∀ record, found = .ok (some record) →
        mirror.view user = some record.timeless ∧ 0 ≤ record.lastActivity := by
  refine (cacheGet_ensures outside user site).mono fun found later hcall => ?_
  have hlater := h.fades hcall.1
  exact ⟨hlater, fun record hfound => hlater.cached user record (hcall.2 record hfound)⟩

/-- A write to the cache succeeds, or it changes nothing. -/
theorem cachePut_mirrors (hbears : outside.Bears) (h : site.Mirrors outside past mirror)
    {record : Record} (hactive : 0 ≤ record.lastActivity) :
    Ensures (cachePut outside record) site fun result later =>
      (result = .ok () → later.Mirrors outside past (mirror.see record.timeless)) ∧
        ∀ failure, result = .error failure → later.Mirrors outside past mirror := by
  rcases hbears.cache with hfails | hremoves
  · have hput : Ensures (cachePut outside record) site fun result later =>
        result ≠ .ok () ∧ site.Fades outside later := by
      simp only [Ensures, cachePut, StateT.run]
      split
      · refine ⟨fun hok => ?_, site.fades_atCall outside⟩
        cases hok
      · next hfault => exact absurd hfault (hfails _ _)
    exact hput.mono fun _ _ hcall => ⟨fun hok => absurd hok hcall.1, fun _ _ => h.fades hcall.2⟩
  · refine (cachePut_ensures outside record site).mono fun _ later hcall => ?_
    obtain ⟨faded, hfades, ⟨rfl, rfl⟩ | ⟨failure, rfl, -, rfl⟩⟩ := hcall
    · refine ⟨fun _ => (h.fades hfades).hold hremoves hactive, fun failure hfailed => ?_⟩
      cases hfailed
    · refine ⟨fun hok => ?_, fun _ _ => h.fades hfades⟩
      cases hok

/-- After a removal from the cache the cache does not show the user, even if it never works. -/
theorem cacheRemove_mirrors (hbears : outside.Bears) (h : site.Mirrors outside past mirror)
    (user : String) :
    Ensures (cacheRemove outside user) site fun _ later =>
      later.Mirrors outside past mirror ∧ later.cached? user = none := by
  refine (cacheRemove_ensures outside user site).mono fun _ later hcall => ?_
  obtain ⟨faded, hfades, ⟨-, rfl⟩ | ⟨failure, -, hfault, rfl⟩⟩ := hcall
  · exact ⟨(h.fades hfades).drop user, by rw [cached?_drop, if_pos rfl]⟩
  · have hlater := h.fades hfades
    rcases hbears.cache with hfails | hremoves
    · exact ⟨hlater, hlater.empty hfails user⟩
    · rw [hremoves] at hfault
      cases hfault

/-- The mirror does not see what the other nodes are told. -/
theorem publishToPeers_mirrors (h : site.Mirrors outside past mirror) (event : Topic → Event) :
    Ensures (publishToPeers event) site fun _ later => later.Mirrors outside past mirror := by
  refine ensures_get_bind ?_
  split
  · exact ensures_modify { h with }
  · exact ensures_pure h

/-- A record that is cached and told to the other nodes is what the cache shows, if anything. -/
theorem cacheAndSync_mirrors (hbears : outside.Bears) (h : site.Mirrors outside past mirror)
    {record : Record} (hactive : 0 ≤ record.lastActivity) :
    Ensures (cacheAndSync outside record) site fun _ later =>
      later.Mirrors outside past (mirror.see record.timeless) := by
  refine (cachePut_mirrors hbears h hactive).bind fun result put hcall => ?_
  obtain ⟨hheld, hkept⟩ := hcall
  split
  · exact publishToPeers_mirrors (hheld rfl) _
  · next failure =>
    have hremove := cacheRemove_mirrors hbears (hkept failure rfl) record.userId
    refine hremove.bind fun _ dropped hcall => ?_
    obtain ⟨hdropped, hgone⟩ := hcall
    refine publishToPeers_mirrors (hdropped.review fun user other hcached => ?_) _
    have hne : ¬record.timeless.userId = user := by
      rintro rfl
      rw [show record.timeless.userId = record.userId from rfl, hgone] at hcached
      cases hcached
    rw [if_neg hne]
    exact (hdropped.cached user other hcached).1

/-- A record that is broadcast is shown. -/
theorem broadcast_mirrors (h : site.Mirrors outside past mirror) (record : Record) :
    Ensures (broadcast record) site fun _ later =>
      later.Mirrors outside past (mirror.tell [record.timeless.presence]) := by
  have hshown : (site.shown ++ [record.presence]).map PresenceEvent.timeless =
      past ++ (mirror.shown ++ [record.timeless.presence]) := by
    rw [List.map_append, h.shown, List.append_assoc]
    rfl
  exact { h with shown := hshown }

/-- A read of one row finds the mirror's row, or reports that there is none. -/
theorem storeGet_mirrors (hbears : outside.Bears) (h : site.Mirrors outside past mirror)
    (user : String) :
    Ensures (storeGet outside user) site fun result later => later.Mirrors outside past mirror ∧
      ((∃ row, result = .ok row ∧ mirror.rows[user]? = some row.timeless ∧ row.userId = user ∧
          0 ≤ row.lastActivity) ∨
        result = .error (.refused (.noStatus user)) ∧ mirror.rows[user]? = none) := by
  refine (storeRead_ensures outside (.get user) (fun store => store.find user) site).mono
    fun result later hcall => ?_
  obtain ⟨hfades, rfl | ⟨fault, -, hfault⟩⟩ := hcall
  · refine ⟨h.fades hfades, ?_⟩
    rw [← h.rows, Store.get?_timeless]
    cases hstored : site.store[user]? with
    | some row =>
      rw [(Store.find_eq_ok_iff site.store user row).mpr hstored]
      exact .inl ⟨row, rfl, rfl, h.keyed user row hstored, h.active user row hstored⟩
    | none =>
      rw [Store.find, hstored]
      exact .inr ⟨rfl, rfl⟩
  · rw [hbears.store] at hfault
    cases hfault

/-- A read of several rows finds the mirror's rows, each under its user. -/
theorem storeGetMany_mirrors (hbears : outside.Bears) (h : site.Mirrors outside past mirror)
    (users : List String) :
    Ensures (storeGetMany outside users) site fun result later =>
      later.Mirrors outside past mirror ∧
      ∃ records, result = .ok records ∧
        (∀ record ∈ records,
          mirror.rows[record.userId]? = some record.timeless ∧ 0 ≤ record.lastActivity) ∧
        ∀ user ∈ users, mirror.rows[user]? ≠ none → user ∈ records.map Record.userId := by
  refine (storeRead_ensures outside (.getMany users) (fun store => .ok (store.findMany users))
    site).mono fun result later hcall => ?_
  obtain ⟨hfades, rfl | ⟨fault, -, hfault⟩⟩ := hcall
  · refine ⟨h.fades hfades, _, rfl, fun record hmem => ?_, fun user hmem hrow => ?_⟩
    · have hstored := Store.mem_findMany h.keyed hmem
      rw [← h.rows, Store.get?_timeless, hstored]
      exact ⟨rfl, h.active record.userId record hstored⟩
    · obtain ⟨record, hrow⟩ := Option.ne_none_iff_exists'.mp hrow
      obtain ⟨row, hstored, -⟩ := h.row hrow
      exact List.mem_map.mpr
        ⟨row, List.mem_filterMap.mpr ⟨user, hmem, hstored⟩, h.keyed user row hstored⟩
  · rw [hbears.store] at hfault
    cases hfault

/-- Of a user whose row the cache shows, if anything, the mirror's record is loaded. -/
theorem load_mirrors (hbears : outside.Bears) (h : site.Mirrors outside past mirror) {user : String}
    (hview : mirror.view user = mirror.rows[user]?) :
    Ensures (load outside user) site fun result later => later.Mirrors outside past mirror ∧
      ∃ current, result = .ok current ∧ current.timeless = mirror.current user ∧
        current.record.userId = user ∧ 0 ≤ current.record.lastActivity := by
  refine (cacheGet_mirrors h user).bind fun found looked hcall => ?_
  obtain ⟨hlooked, hfound⟩ := hcall
  split
  · next record =>
    obtain ⟨hseen, hactive⟩ := hfound record rfl
    rw [hview] at hseen
    refine ensures_pure ⟨hlooked, _, rfl, ?_, h.userId hseen, hactive⟩
    rw [Mirror.current, hseen]
    rfl
  · refine (storeGet_mirrors hbears hlooked user).bind fun result later hcall => ?_
    obtain ⟨hlater, ⟨row, rfl, hrow, huser, hactive⟩ | ⟨rfl, hrow⟩⟩ := hcall
    · refine ensures_pure ⟨hlater, _, rfl, ?_, huser, hactive⟩
      rw [Mirror.current, hrow]
      rfl
    · refine ensures_pure ⟨hlater, _, rfl, ?_, rfl, Int64.le_refl 0⟩
      rw [Mirror.current, hrow]
      rfl

end Engine

end PresenceTracker
