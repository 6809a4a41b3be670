import PresenceTracker.Engine.Operations
import PresenceTracker.Proofs.Engine.Calls
import PresenceTracker.Proofs.Store.Rows

/-!
# What a node holds of one user

Most operations are about one user. What a node holds of a user is the record that its cache
shows, the user's row, and the events about the user that it has let out so far. A single
call changes what is held of the user it is about; of all other users it leaves everything
as it was, but that their entries may vanish from the cache.
-/

namespace PresenceTracker

/-- What a node holds of one user. -/
structure Holding where
  /-- The record that the cache shows. -/
  cached : Option Record
  /-- The user's row. -/
  row : Option Record
  /-- The events about the user that were shown to the node's clients. -/
  shown : List PresenceEvent
  /-- The events about the user that were announced to the clients of other nodes. -/
  announced : List PresenceEvent
  deriving DecidableEq, Repr

/-- What an event has the other nodes show their clients about a user. -/
def Event.announces? (user : String) : Event → Option PresenceEvent
  | .presenceChanged presence => if presence.userId = user then some presence else none
  | _ => none

/-- What a node holds of a user. -/
def Site.holding (site : Site) (user : String) : Holding where
  cached := site.cached? user
  row := site.store[user]?
  shown := site.shown.filter fun presence => presence.userId = user
  announced := site.published.filterMap (Event.announces? user)

/-- The user's record as the node sees it: cached, or else stored. -/
def Holding.current? (held : Holding) : Option Record := held.cached.or held.row

/-- The cache keeps what it holds of a user: the entry never vanishes and can be written. -/
structure Outside.Spares (outside : Outside) (user : String) : Prop where
  /-- The entry never vanishes. -/
  stays : ∀ count, outside.vanishes count user = false
  /-- Every write of the entry works. -/
  puts : ∀ count record, record.userId = user → outside.cacheFault count (.put record) = none

/-- A store that fails to read a row does not report that there is no such row. -/
def Outside.Truthful (outside : Outside) : Prop :=
  ∀ count user failure, outside.storeFault count (.get user) = some (.refused failure) →
    failure.isNotFound = false

/-- Where nothing fails the cache spares every user. -/
theorem Outside.calm_spares (user : String) : Outside.calm.Spares user :=
  ⟨fun _ => rfl, fun _ _ _ => rfl⟩

/-- A store of which no call fails does not misreport a row. -/
theorem Outside.Faultless.truthful {outside : Outside} (h : outside.Faultless) :
    outside.Truthful := by
  intro count user failure hfault
  rw [h.store] at hfault
  cases hfault

namespace Holding

variable {outside : Outside} {user : String} {held later last : Holding}

/-- The user's row is the same, and nothing about the user was let out. -/
structure Rests (held later : Holding) : Prop where
  /-- The row is the same. -/
  row : later.row = held.row
  /-- Nothing was shown. -/
  shown : later.shown = held.shown
  /-- Nothing was announced. -/
  announced : later.announced = held.announced

/-- Where nothing has happened the row is the same. -/
theorem Rests.refl (held : Holding) : held.Rests held := ⟨rfl, rfl, rfl⟩

/-- Two spells in which nothing was let out are one. -/
theorem Rests.trans (h : held.Rests later) (h' : later.Rests last) : held.Rests last :=
  ⟨h'.row.trans h.row, h'.shown.trans h.shown, h'.announced.trans h.announced⟩

/-- A cache that shows nothing of the user has at most lost the user. -/
theorem Rests.eq_lost (h : held.Rests later) (hcached : later.cached = none) :
    later = { held with cached := none } := by
  obtain ⟨hrow, hshown, hannounced⟩ := h
  cases later
  simp_all

/-- Nothing has happened to what is held of a user but that the cache may have lost it. -/
structure Fades (outside : Outside) (user : String) (held later : Holding) : Prop
    extends held.Rests later where
  /-- The cache shows the same, unless it has lost the user. -/
  cached : later.cached = held.cached ∨ later.cached = none ∧ ¬outside.Spares user

namespace Fades

/-- Where nothing has happened the cache shows the same. -/
theorem refl (held : Holding) : held.Fades outside user held := ⟨.refl held, .inl rfl⟩

/-- Whether the cache loses the user early or late, it has lost the user in the end. -/
theorem trans (h : held.Fades outside user later) (h' : later.Fades outside user last) :
    held.Fades outside user last := by
  refine ⟨h.toRests.trans h'.toRests, ?_⟩
  rcases h'.cached with hsame | hlost
  · rw [hsame]
    exact h.cached
  · exact .inr hlost

/-- What the cache shows afterwards it showed before. -/
theorem of_cached (h : held.Fades outside user later) {record : Record}
    (hcached : later.cached = some record) : held.cached = some record := by
  rcases h.cached with hsame | ⟨hlost, -⟩
  · exact hsame ▸ hcached
  · rw [hlost] at hcached
    cases hcached

/-- A cache that shows nothing of the user afterwards may have lost the user. -/
theorem lost (h : held.Fades outside user later) (hcached : held.cached = none) :
    later.cached = none := by
  rcases h.cached with hsame | ⟨hlost, -⟩
  · exact hsame.trans hcached
  · exact hlost

/-- Where the cache spares the user nothing has happened at all. -/
theorem eq_of_spares (h : held.Fades outside user later) (hspares : outside.Spares user) :
    later = held := by
  obtain ⟨⟨hrow, hshown, hannounced⟩, hsame | ⟨-, hunspared⟩⟩ := h
  · cases held
    cases later
    simp_all
  · exact absurd hspares hunspared

end Fades

end Holding

namespace Site

variable {outside : Outside} {site later last : Site} {user : String}

/-- Every row and every cached record stands under its user. -/
structure Filed (site : Site) : Prop where
  /-- Every row stands under its user. -/
  keyed : site.store.Keyed
  /-- Every cached record stands under its user. -/
  cached : ∀ user record, site.cached? user = some record → record.userId = user

/-- Since a moment nothing has happened to what a site holds of users other than `users` but
that its cache may have lost them. The clock and the settings are the same. -/
structure Works (outside : Outside) (users : List String) (site later : Site) : Prop where
  /-- Rows and cached records stay under their users. -/
  filed : site.Filed → later.Filed
  /-- Of other users the same is held, unless the cache has lost them. -/
  others : ∀ user, user ∉ users → (site.holding user).Fades outside user (later.holding user)
  /-- The clock stands still. -/
  clock : later.clock = site.clock
  /-- The settings are the same. -/
  settings : later.settings = site.settings

namespace Works

variable {users : List String}

/-- Doing nothing is work on nobody. -/
theorem refl (site : Site) : site.Works outside users site :=
  ⟨fun h => h, fun _ _ => .refl _, rfl, rfl⟩

/-- Two pieces of work on the same users are one. -/
theorem trans (h : site.Works outside users later) (h' : later.Works outside users last) :
    site.Works outside users last where
  filed hfiled := h'.filed (h.filed hfiled)
  others user huser := (h.others user huser).trans (h'.others user huser)
  clock := h'.clock.trans h.clock
  settings := h'.settings.trans h.settings

/-- Work on fewer users is work on more. -/
theorem mono {more : List String} (h : site.Works outside users later)
    (hmore : ∀ user ∈ users, user ∈ more) : site.Works outside more later :=
  { h with others := fun user huser => h.others user fun hmem => huser (hmore user hmem) }

/-- Where nobody was worked on nothing has happened to any user. -/
theorem fades (h : site.Works outside [] later) (user : String) :
    (site.holding user).Fades outside user (later.holding user) :=
  h.others user List.not_mem_nil

/-- Where nobody was worked on, this counts as work on anybody. -/
theorem idle (h : site.Works outside [] later) : site.Works outside users later :=
  h.mono fun _ => nofun

end Works

/-- A record is cached under its user. -/
theorem Filed.hold (h : site.Filed) (record : Record) : (site.hold record).Filed where
  keyed := h.keyed
  cached user other hcached := by
    rw [cached?_hold] at hcached
    split at hcached
    · next hsame =>
      cases hcached
      exact hsame
    · exact h.cached user other hcached

/-- A removal leaves the other records under their users. -/
theorem Filed.drop (h : site.Filed) (gone : String) : (site.drop gone).Filed where
  keyed := h.keyed
  cached user record hcached := by
    rw [cached?_drop] at hcached
    split at hcached
    · cases hcached
    · exact h.cached user record hcached

/-- Rows under their users may take the place of such rows. -/
theorem Filed.withStore (h : site.Filed) {store : Store} (hkeyed : store.Keyed) :
    (site.withStore store).Filed := ⟨hkeyed, h.cached⟩

/-- A write to the cache changes what is held of the record's user. -/
@[simp]
theorem holding_hold (site : Site) (record : Record) (user : String) :
    (site.hold record).holding user = if record.userId = user then
      { site.holding user with cached := some record } else site.holding user := by
  simp only [holding, cached?_hold]
  split <;> rfl

/-- A removal from the cache changes what is held of the user it is about. -/
@[simp]
theorem holding_drop (site : Site) (gone user : String) :
    (site.drop gone).holding user = if gone = user then
      { site.holding user with cached := none } else site.holding user := by
  simp only [holding, cached?_drop]
  split <;> rfl

/-- A purge changes what is held of everybody. -/
@[simp]
theorem holding_clear (site : Site) (user : String) :
    site.clear.holding user = { site.holding user with cached := none } := by
  rw [holding, cached?_empty rfl]
  rfl

/-- Fading is work on nobody. -/
theorem Fades.works (h : site.Fades outside later) : site.Works outside [] later where
  filed hfiled := ⟨h.store ▸ hfiled.keyed, fun user record hcached =>
    hfiled.cached user record (h.cached? hcached)⟩
  others user _ := by
    refine ⟨⟨congrArg (·[user]?) h.store, ?_, ?_⟩, ?_⟩
    · simp only [holding, h.shown]
    · simp only [holding, h.published]
    by_cases hstays : ∀ count, outside.vanishes count user = false
    · exact .inl (by simp only [holding, cached?, h.stays user hstays])
    · cases hcached : later.cached? user with
      | none => exact .inr ⟨hcached, fun hspares => hstays hspares.stays⟩
      | some record => exact .inl (hcached.trans (h.cached? hcached).symm)
  clock := h.clock
  settings := h.settings

/-- To cache a record is work on its user. -/
theorem works_hold (site : Site) (record : Record) :
    site.Works outside [record.userId] (site.hold record) where
  filed h := h.hold record
  others user huser := by
    rw [holding_hold, if_neg fun heq => huser (List.mem_singleton.mpr heq.symm)]
    exact .refl _
  clock := rfl
  settings := rfl

/-- To remove a user from the cache is work on that user. -/
theorem works_drop (site : Site) (gone : String) :
    site.Works outside [gone] (site.drop gone) where
  filed h := h.drop gone
  others user huser := by
    rw [holding_drop, if_neg fun heq => huser (List.mem_singleton.mpr heq.symm)]
    exact .refl _
  clock := rfl
  settings := rfl

/-- A change of the rows of some users is work on them. -/
theorem works_withStore (site : Site) {store : Store} {users : List String}
    (hkeyed : site.store.Keyed → store.Keyed)
    (hrows : ∀ user, user ∉ users → store[user]? = site.store[user]?) :
    site.Works outside users (site.withStore store) where
  filed h := h.withStore (hkeyed h.keyed)
  others user huser := ⟨⟨hrows user huser, rfl, rfl⟩, .inl rfl⟩
  clock := rfl
  settings := rfl

/-- A change of one user's row is work on the user, and the same is held of the user but for the
row. -/
theorem Fades.changeRow (h : site.Fades outside later) {store : Store} {row : Option Record}
    (hkeyed : site.store.Keyed → store.Keyed) (hrow : store[user]? = row)
    (hothers : ∀ other, user ≠ other → store[other]? = site.store[other]?) :
    site.Works outside [user] (later.withStore store) ∧
      Holding.Fades outside user { site.holding user with row := row }
        ((later.withStore store).holding user) := by
  have hfaded := h.works.fades user
  refine ⟨h.works.idle.trans (works_withStore later (h.store ▸ hkeyed) fun other hother => ?_),
    ⟨hrow, hfaded.shown, hfaded.announced⟩, hfaded.cached⟩
  rw [h.store]
  exact hothers other fun heq => hother (List.mem_singleton.mpr heq.symm)

/-- Only the bookkeeping on writes may have changed. -/
def Tracks (site later : Site) : Prop := ∃ slots, later = { site with slots }

/-- Bookkeeping is work on nobody. -/
theorem Tracks.works (h : site.Tracks later) : site.Works outside [] later := by
  obtain ⟨slots, rfl⟩ := h
  exact ⟨fun hfiled => ⟨hfiled.keyed, hfiled.cached⟩, fun _ _ => .refl _, rfl, rfl⟩

/-- Bookkeeping changes nothing that is held of a user. -/
theorem Tracks.holding (h : site.Tracks later) (user : String) :
    later.holding user = site.holding user := by
  obtain ⟨slots, rfl⟩ := h
  rfl

end Site

namespace Engine

open Site

variable {outside : Outside} {site : Site}

/-- That a row was written is mere bookkeeping. -/
theorem notePersisted_tracks (user : String) (site : Site) :
    Ensures (notePersisted user) site fun _ later => site.Tracks later :=
  ensures_modify ⟨_, rfl⟩

/-- That a row was turned is mere bookkeeping. -/
theorem noteSwept_tracks (user : String) (now : Moment) (site : Site) :
    Ensures (noteSwept user now) site fun _ later => site.Tracks later :=
  ensures_modify ⟨_, rfl⟩

/-- To forget a user is mere bookkeeping. -/
theorem forget_tracks (user : String) (site : Site) :
    Ensures (forget user) site fun _ later => site.Tracks later :=
  ensures_modify ⟨_, rfl⟩

/-- The end of an operation on a user is mere bookkeeping. -/
theorem release_tracks (user : String) (site : Site) :
    Ensures (release user) site fun _ later => site.Tracks later := by
  refine ensures_modify ?_
  split <;> exact ⟨_, rfl⟩

/-- To forget users whose window has closed is mere bookkeeping. -/
theorem pruneSlots_tracks (now : Moment) (site : Site) :
    Ensures (pruneSlots now) site fun _ later => site.Tracks later :=
  ensures_modify ⟨_, rfl⟩

/-- A look-up that works and gives no record finds nothing in the cache. -/
theorem cacheGet_misses (hworks : outside.CacheWorks) (user : String) (site : Site) :
    Ensures (cacheGet outside user) site fun found later =>
      (∀ record, found ≠ .ok (some record)) → later.cached? user = none := by
  show (∀ record, ((cacheGet outside user).run site).1 ≠ .ok (some record)) →
    (site.atCall outside).cached? user = none
  intro hmisses
  have hlook : ∀ record, (site.atCall outside).lookUpResult user ≠ .ok (some record) := by
    intro record
    have hmiss := hmisses record
    simpa only [cacheGet, StateT.run, hworks site.calls (.get user)] using hmiss
  unfold Site.lookUpResult at hlook
  unfold Site.cached?
  split at hlook
  · next hempty => rw [hempty, Option.bind_none]
  · next frame hframe =>
    rw [hframe, Option.bind_some]
    cases hdecode : FrameCodec.record.decode frame with
    | error failure => rfl
    | ok record => exact absurd (by rw [hdecode]; rfl) (hlook record)

/-- What a look-up finds is what the cache shows; where the cache works and nothing is found,
the cache shows nothing. -/
theorem cacheGet_gives (outside : Outside) (user : String) (site : Site) :
    Ensures (cacheGet outside user) site fun found later => site.Works outside [] later ∧
      (∀ record, found = .ok (some record) → (later.holding user).cached = some record) ∧
      (outside.CacheWorks → (∀ record, found ≠ .ok (some record)) →
        (later.holding user).cached = none) := by
  have hlook := cacheGet_ensures outside user site
  exact ⟨hlook.1.works, hlook.2, fun hworks => cacheGet_misses hworks user site⟩

/-- A store that says there is no row, and that is truthful if it fails, has no row. -/
theorem storeGet_gives (outside : Outside) (user : String) (site : Site) :
    Ensures (storeGet outside user) site fun result later => site.Works outside [] later ∧
      (∀ record, result = .ok record → (later.holding user).row = some record) ∧
      (outside.Truthful → ∀ failure, result = .error (.refused failure) →
        failure.isNotFound = true → (later.holding user).row = none) := by
  refine (storeRead_ensures outside (.get user) (fun store => store.find user) site).mono
    fun result later hcall => ?_
  obtain ⟨hfades, hresult⟩ := hcall
  refine ⟨hfades.works, fun record hok => ?_, fun htruthful failure hfails hnotFound => ?_⟩
  · have hrow : site.store.find user = .ok record := by
      rcases hresult with rfl | ⟨fault, rfl, -⟩
      · cases hfind : site.store.find user with
        | error failure => rw [hfind] at hok; cases hok
        | ok found => rw [hfind] at hok; cases hok; rfl
      · cases hok
    exact (congrArg (·[user]?) hfades.store).trans
      ((Store.find_eq_ok_iff site.store user record).mp hrow)
  · have hnone : site.store[user]? = none := by
      rcases hresult with rfl | ⟨fault, rfl, hfault⟩
      · cases hrow : site.store[user]? with
        | none => rfl
        | some row =>
          rw [(Store.find_eq_ok_iff site.store user row).mpr hrow] at hfails
          cases hfails
      · cases hfails
        rw [htruthful _ _ _ hfault] at hnotFound
        cases hnotFound
    exact (congrArg (·[user]?) hfades.store).trans hnone

/-- A write of a row puts the record in its place, or fails and changes nothing. -/
theorem storeSave_gives (outside : Outside) (record : Record) (site : Site) :
    Ensures (storeSave outside record) site fun result later =>
      site.Works outside [record.userId] later ∧
      (result = .ok () → Holding.Fades outside record.userId
        { site.holding record.userId with row := some record } (later.holding record.userId)) ∧
      ∀ fault, result = .error fault →
        (site.holding record.userId).Fades outside record.userId (later.holding record.userId) := by
  refine (storeSave_ensures outside record site).mono fun result later hcall => ?_
  obtain ⟨faded, hfades, ⟨saved, hsave, rfl, rfl⟩ | ⟨⟨fault, rfl⟩, rfl⟩⟩ := hcall
  · have hrow : saved[record.userId]? = some record := by rw [Store.get?_save hsave, if_pos rfl]
    have hothers : ∀ other, record.userId ≠ other → saved[other]? = site.store[other]? := by
      intro other hne
      rw [Store.get?_save hsave, if_neg hne]
    obtain ⟨hworks, hwritten⟩ :=
      hfades.changeRow (fun hkeyed => hkeyed.save hsave) hrow hothers
    exact ⟨hworks, fun _ => hwritten, fun _ => nofun⟩
  · exact ⟨hfades.works.idle, nofun, fun _ _ => hfades.works.fades record.userId⟩

/-- A write that changes one user's row by a rule does so, or fails and changes nothing. -/
theorem storeChange_gives (outside : Outside) (call : StoreCall) {change : Store → Store}
    {user : String} (rule : Option Record → Option Record) (site : Site)
    (hkeyed : site.store.Keyed → (change site.store).Keyed)
    (hrows : ∀ other, (change site.store)[other]? =
      if user = other then rule site.store[other]? else site.store[other]?) :
    Ensures (storeCall outside call fun store => (.ok (), change store)) site
      fun result later => site.Works outside [user] later ∧
        (result = .ok () → Holding.Fades outside user
          { site.holding user with row := rule (site.holding user).row } (later.holding user)) ∧
        ∀ fault, result = .error fault →
          (site.holding user).Fades outside user (later.holding user) := by
  refine (storeChange_ensures outside call (fun _ => ()) change site).mono
    fun result later hcall => ?_
  obtain ⟨faded, hfades, ⟨rfl, rfl⟩ | ⟨fault, rfl, -, rfl⟩⟩ := hcall
  · have hrow : (change site.store)[user]? = rule site.store[user]? := by
      rw [hrows, if_pos rfl]
    have hothers : ∀ other, user ≠ other →
        (change site.store)[other]? = site.store[other]? := fun other hne => by
      rw [hrows, if_neg hne]
    obtain ⟨hworks, hchanged⟩ := hfades.changeRow hkeyed hrow hothers
    exact ⟨hworks, fun _ => hchanged, fun _ => nofun⟩
  · exact ⟨hfades.works.idle, nofun, fun _ _ => hfades.works.fades user⟩

/-- A write of the activity changes at most the activity of the row. -/
theorem storeTouch_gives (outside : Outside) (user : String) (moment : Moment) (site : Site) :
    Ensures (storeTouch outside user moment) site fun result later =>
      site.Works outside [user] later ∧
      (result = .ok () → Holding.Fades outside user
        { site.holding user with
          row := (site.holding user).row.map fun row => { row with lastActivity := moment } }
        (later.holding user)) ∧
      ∀ fault, result = .error fault →
        (site.holding user).Fades outside user (later.holding user) :=
  storeChange_gives outside (.touch user moment)
    (Option.map fun row => { row with lastActivity := moment }) site
    (fun hkeyed => hkeyed.touch user moment)
    fun other => Store.get?_touch site.store user other moment

/-- A deletion takes the user's row, or fails and changes nothing. -/
theorem storeDelete_gives (outside : Outside) (user : String) (site : Site) :
    Ensures (storeDelete outside user) site fun result later =>
      site.Works outside [user] later ∧
      (result = .ok () → Holding.Fades outside user { site.holding user with row := none }
        (later.holding user)) ∧
      ∀ fault, result = .error fault →
        (site.holding user).Fades outside user (later.holding user) :=
  storeChange_gives outside (.delete user) (fun _ => none) site (fun hkeyed => hkeyed.delete user)
    fun other => Store.get?_delete site.store user other

/-- A write to the cache holds the record; if it fails, the cache does not spare the user. -/
theorem cachePut_gives (outside : Outside) (record : Record) (site : Site) :
    Ensures (cachePut outside record) site fun result later =>
      site.Works outside [record.userId] later ∧
      (site.holding record.userId).Rests (later.holding record.userId) ∧
      (result = .ok () → (later.holding record.userId).cached = some record) ∧
      (∀ failure, result = .error failure →
        (site.holding record.userId).Fades outside record.userId (later.holding record.userId) ∧
          ¬outside.Spares record.userId) := by
  refine (cachePut_ensures outside record site).mono fun result later hcall => ?_
  obtain ⟨faded, hfades, ⟨rfl, rfl⟩ | ⟨failure, rfl, hfault, rfl⟩⟩ := hcall
  · have hown : (faded.hold record).holding record.userId =
        { faded.holding record.userId with cached := some record } := by
      rw [holding_hold, if_pos rfl]
    rw [hown]
    refine ⟨hfades.works.idle.trans (works_hold faded record), ?_, fun _ => rfl, fun _ => nofun⟩
    obtain ⟨hrow, hshown, hannounced⟩ := (hfades.works.fades record.userId).toRests
    exact ⟨hrow, hshown, hannounced⟩
  · refine ⟨hfades.works.idle, (hfades.works.fades record.userId).toRests, nofun, fun _ _ => ?_⟩
    refine ⟨hfades.works.fades record.userId, fun hspares => ?_⟩
    rw [hspares.puts _ record rfl] at hfault
    cases hfault

/-- Where removals work, a removal takes the user out of the cache. -/
theorem cacheRemove_gives (hremoves : outside.RemovesWork) (user : String) (site : Site) :
    Ensures (cacheRemove outside user) site fun _ later => site.Works outside [user] later ∧
      (site.holding user).Rests (later.holding user) ∧ (later.holding user).cached = none := by
  refine (cacheRemove_ensures outside user site).mono fun result later hcall => ?_
  obtain ⟨faded, hfades, ⟨rfl, rfl⟩ | ⟨failure, rfl, hfault, rfl⟩⟩ := hcall
  · have hown : (faded.drop user).holding user = { faded.holding user with cached := none } := by
      rw [holding_drop, if_pos rfl]
    rw [hown]
    obtain ⟨hrow, hshown, hannounced⟩ := (hfades.works.fades user).toRests
    exact ⟨hfades.works.idle.trans (works_drop faded user), ⟨hrow, hshown, hannounced⟩, rfl⟩
  · rw [hremoves] at hfault
    cases hfault

/-- A purge that works loses all users from the cache; one that fails changes nothing. -/
theorem cachePurge_gives (outside : Outside) (site : Site) :
    Ensures (cachePurge outside) site fun result later => (site.Filed → later.Filed) ∧
      later.clock = site.clock ∧ later.settings = site.settings ∧
      (result = .ok () → ∀ user,
        later.holding user = { site.holding user with cached := none }) ∧
      ∀ failure, result = .error failure → ∀ user,
        (site.holding user).Fades outside user (later.holding user) := by
  refine (cachePurge_ensures outside site).mono fun result later hcall => ?_
  obtain ⟨faded, hfades, ⟨rfl, rfl⟩ | ⟨failure, rfl, -, rfl⟩⟩ := hcall
  · refine ⟨fun hfiled => ⟨hfades.store ▸ hfiled.keyed, fun user record hcached => ?_⟩,
      hfades.clock, hfades.settings, fun _ user => ?_, fun _ => nofun⟩
    · rw [cached?_empty rfl] at hcached
      cases hcached
    · have hfaded := (hfades.works.fades user).toRests
      rw [holding_clear]
      simp only [hfaded.row, hfaded.shown, hfaded.announced]
  · exact ⟨hfades.works.filed, hfades.clock, hfades.settings, nofun, fun _ _ user =>
      hfades.works.fades user⟩

/-- Publishing anything but a presence event is work on nobody. -/
theorem publishToPeers_gives (outside : Outside) {event : Topic → Event}
    (hevent : ∀ topic user, (event topic).announces? user = none) (site : Site) :
    Ensures (publishToPeers event) site fun _ later => site.Works outside [] later ∧
      ∀ user, later.holding user = site.holding user := by
  have hsame : ∀ user,
      Site.holding { site with published := site.published ++ [event site.topic] } user =
        site.holding user := by
    intro user
    simp only [holding, List.filterMap_append, List.filterMap_cons, hevent, List.filterMap_nil,
      List.append_nil]
    rfl
  refine ensures_get_bind ?_
  split
  · refine ensures_modify
      ⟨⟨fun hfiled => ⟨hfiled.keyed, hfiled.cached⟩, fun user _ => ?_, rfl, rfl⟩, hsame⟩
    rw [hsame user]
    exact .refl _
  · exact ensures_pure ⟨.refl site, fun _ => rfl⟩

/-- Showing a record to all clients lets out one event about its user. -/
theorem broadcast_gives (outside : Outside) (record : Record) (site : Site) :
    Ensures (broadcast record) site fun _ later => site.Works outside [record.userId] later ∧
      later.holding record.userId = { site.holding record.userId with
        shown := (site.holding record.userId).shown ++ [record.presence]
        announced := (site.holding record.userId).announced ++ [record.presence] } := by
  show site.Works outside [record.userId] { site with
      shown := site.shown ++ [record.presence]
      published := site.published ++ [.presenceChanged record.presence] } ∧ _
  refine ⟨⟨fun hfiled => ⟨hfiled.keyed, hfiled.cached⟩, fun user huser => ?_, rfl, rfl⟩, ?_⟩
  · have hne : ¬record.userId = user := fun heq => huser (List.mem_singleton.mpr heq.symm)
    refine ⟨⟨rfl, ?_, ?_⟩, .inl rfl⟩
    · simp [holding, Record.presence, hne]
    · simp [holding, Event.announces?, Record.presence, hne]
  · show Site.holding { site with
      shown := site.shown ++ [record.presence]
      published := site.published ++ [.presenceChanged record.presence] } record.userId = _
    simp [holding, Site.cached?, Event.announces?, Record.presence]

end Engine

end PresenceTracker
