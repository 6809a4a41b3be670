import PresenceTracker.Engine.Slots
import PresenceTracker.Proofs.Engine.Ensures
import PresenceTracker.Proofs.Frame.RoundTrip
import PresenceTracker.Proofs.Store.Rows

/-!
# Single calls

What a single call to the cache or to the store does to a site. Between two calls entries
of the cache may fade; beyond that a call that fails changes nothing, and one that works
changes the cache or the store in the one way it is made for.
-/

namespace PresenceTracker

namespace Site

/-- Since a moment a site's store and topic are the same, nothing was published, and nothing
new has come into the cache. -/
structure Rests (site later : Site) : Prop where
  /-- The topic of the cache is the same. -/
  topic : later.topic = site.topic
  /-- The rows are the same. -/
  store : later.store = site.store
  /-- The cache holds nothing new. -/
  cache : ∀ (user : String) (frame : Bytes),
    later.cache[user]? = some frame → site.cache[user]? = some frame
  /-- Nothing was published. -/
  published : later.published = site.published

/-- Since a moment nothing has happened to a site but that entries of its cache vanished,
calls were made and look-ups counted. -/
structure Fades (outside : Outside) (site later : Site) : Prop extends site.Rests later where
  /-- An entry that does not vanish is still there. -/
  stays : ∀ user : String, (∀ count, outside.vanishes count user = false) →
    later.cache[user]? = site.cache[user]?
  /-- The clock stands still. -/
  clock : later.clock = site.clock
  /-- The settings are the same. -/
  settings : later.settings = site.settings
  /-- The same users are tracked. -/
  slots : later.slots = site.slots
  /-- Nothing was shown. -/
  shown : later.shown = site.shown

/-- A site at which nothing is done is at rest. -/
theorem Rests.refl (site : Site) : site.Rests site := ⟨rfl, rfl, fun _ _ h => h, rfl⟩

/-- What a cache at rest holds was held before. -/
theorem Rests.cached? {site later : Site} (h : site.Rests later) {user : String}
    {record : Record} (hc : later.cached? user = some record) :
    site.cached? user = some record := by
  obtain ⟨frame, hframe, hdecode⟩ := Option.bind_eq_some_iff.mp hc
  exact Option.bind_eq_some_iff.mpr ⟨frame, h.cache user frame hframe, hdecode⟩

/-- At a call a site does nothing but fade. -/
theorem fades_atCall (outside : Outside) (site : Site) :
    site.Fades outside (site.atCall outside) where
  stays user h := by
    rw [atCall, Table.get?_filter, h]
    cases site.cache[user]? <;> rfl
  clock := rfl
  settings := rfl
  topic := rfl
  store := rfl
  cache user frame h := by
    rw [atCall, Table.get?_filter] at h
    exact (Option.filter_eq_some_iff.mp h).1
  slots := rfl
  published := rfl
  shown := rfl

/-- The site with a record put into its cache. -/
def hold (site : Site) (record : Record) : Site :=
  { site with cache := site.cache.insert record.userId (FrameCodec.record.encode record) }

/-- The site with a user taken out of its cache. -/
def drop (site : Site) (user : String) : Site := { site with cache := site.cache.erase user }

/-- The site with an empty cache. -/
def clear (site : Site) : Site := { site with cache := ∅ }

/-- The site with other rows in its store. -/
def withStore (site : Site) (store : Store) : Site := { site with store }

/-- A record that was put into a cache is what the cache holds. -/
theorem cached?_hold (site : Site) (record : Record) (user : String) :
    (site.hold record).cached? user =
      if record.userId = user then some record else site.cached? user := by
  simp only [cached?, hold, Table.get?_insert]
  split
  · simp [FrameCodec.decode_encode_record, Except.toOption]
  · rfl

/-- A user who was taken out of a cache is the only one whom the cache does not show any more. -/
theorem cached?_drop (site : Site) (user other : String) :
    (site.drop user).cached? other = if user = other then none else site.cached? other := by
  simp only [cached?, drop, Table.get?_erase]
  split <;> rfl

/-- An emptied cache holds nothing new. -/
theorem Rests.clear {site later : Site} (h : site.Rests later) : site.Rests later.clear :=
  ⟨h.topic, h.store, fun user frame hframe => by simp [Site.clear] at hframe, h.published⟩

/-- The rows that a sweep gives back are those that it turns, in some order. -/
theorem turned_perm (outside : Outside) (site : Site) (now : Moment) :
    (site.turned outside now).Perm (site.store.expired now) :=
  (outside.order site.calls).perm _

/-- A row is given back by a sweep if and only if the sweep turns it. -/
theorem mem_turned_iff {outside : Outside} {site : Site} {now : Moment} {record : Record} :
    record ∈ site.turned outside now ↔ record ∈ site.store.expired now :=
  (turned_perm outside site now).mem_iff

/-- The users of the rows that a sweep gives back are those of the rows that it turns. -/
theorem mem_users_turned_iff {outside : Outside} {site : Site} {now : Moment} {user : String} :
    user ∈ (site.turned outside now).map Record.userId ↔
      user ∈ (site.store.expired now).map Record.userId :=
  ((turned_perm outside site now).map Record.userId).mem_iff

/-- A sweep gives no user back twice. -/
theorem nodup_users_turned (outside : Outside) {site : Site} (h : site.store.Keyed)
    (now : Moment) : ((site.turned outside now).map Record.userId).Nodup :=
  ((turned_perm outside site now).map Record.userId).nodup_iff.mpr (Store.nodup_expired h now)

/-- An empty cache shows nothing. -/
theorem cached?_empty {site : Site} (h : site.cache = ∅) (user : String) :
    site.cached? user = none := by
  simp [cached?, h]

/-- A look-up gives a record if the cache shows it. -/
theorem lookUpResult_eq_ok_some_iff (site : Site) (user : String) (record : Record) :
    site.lookUpResult user = .ok (some record) ↔ site.cached? user = some record := by
  unfold lookUpResult cached?
  cases site.cache[user]? with
  | none => simp
  | some frame => cases hdecode : FrameCodec.record.decode frame <;>
      simp [hdecode, Except.map, Except.toOption]

end Site

namespace Outside

/-- Removals from the cache work. -/
def RemovesWork (outside : Outside) : Prop :=
  ∀ count user, outside.cacheFault count (.remove user) = none

/-- No call to the cache fails. Entries may vanish all the same. -/
def CacheWorks (outside : Outside) : Prop := ∀ count call, outside.cacheFault count call = none

/-- Where no call to the cache fails removals do not fail either. -/
theorem CacheWorks.removesWork {outside : Outside} (h : outside.CacheWorks) :
    outside.RemovesWork := fun count user => h count (.remove user)

/-- No call fails. Entries of the cache may vanish all the same. -/
structure Faultless (outside : Outside) : Prop where
  /-- No call to the store fails. -/
  store : ∀ count call, outside.storeFault count call = none
  /-- No call to the cache fails. -/
  cache : outside.CacheWorks

/-- Where nothing fails no call does. -/
theorem calm_faultless : calm.Faultless := ⟨fun _ _ => rfl, fun _ _ => rfl⟩

end Outside

namespace Engine

/-- A site is at rest while a write is noted. -/
theorem notePersisted_rests (user : String) (site : Site) :
    Ensures (notePersisted user) site fun _ later => site.Rests later :=
  ensures_modify ⟨rfl, rfl, fun _ _ h => h, rfl⟩

/-- A site is at rest while it is noted that a row was turned. -/
theorem noteSwept_rests (user : String) (now : Moment) (site : Site) :
    Ensures (noteSwept user now) site fun _ later => site.Rests later :=
  ensures_modify ⟨rfl, rfl, fun _ _ h => h, rfl⟩

/-- A site is at rest while a user is forgotten. -/
theorem forget_rests (user : String) (site : Site) :
    Ensures (forget user) site fun _ later => site.Rests later :=
  ensures_modify ⟨rfl, rfl, fun _ _ h => h, rfl⟩

/-- A site is at rest at the end of an operation on a user. -/
theorem release_rests (user : String) (site : Site) :
    Ensures (release user) site fun _ later => site.Rests later := by
  refine ensures_modify ?_
  split <;> exact ⟨rfl, rfl, fun _ _ h => h, rfl⟩

/-- A site is at rest while users whose window has closed are forgotten. -/
theorem pruneSlots_rests (now : Moment) (site : Site) :
    Ensures (pruneSlots now) site fun _ later => site.Rests later :=
  ensures_modify ⟨rfl, rfl, fun _ _ h => h, rfl⟩

/-- A look-up changes nothing, and finds only what the cache holds. -/
theorem cacheGet_ensures (outside : Outside) (user : String) (site : Site) :
    Ensures (cacheGet outside user) site fun found later =>
      site.Fades outside later ∧
        ∀ record, found = .ok (some record) → later.cached? user = some record := by
  refine ⟨{ site.fades_atCall outside with }, ?_⟩
  intro record hfound
  have hlook : (site.atCall outside).lookUpResult user = .ok (some record) := by
    simp only [cacheGet, StateT.run] at hfound
    split at hfound
    · cases hfound
    · exact hfound
  exact ((site.atCall outside).lookUpResult_eq_ok_some_iff user record).mp hlook

/-- A write to the cache holds the record, or fails as the outside says and changes
nothing. -/
theorem cachePut_ensures (outside : Outside) (record : Record) (site : Site) :
    Ensures (cachePut outside record) site fun result later => ∃ faded, site.Fades outside faded ∧
      ((result = .ok () ∧ later = faded.hold record) ∨
        (∃ failure, result = .error failure ∧
          outside.cacheFault site.calls (.put record) = some failure ∧ later = faded)) := by
  refine ⟨site.atCall outside, site.fades_atCall outside, ?_⟩
  simp only [cachePut, StateT.run]
  split
  · next failure hfault => exact .inr ⟨failure, rfl, hfault, rfl⟩
  · exact .inl ⟨rfl, rfl⟩

/-- A removal takes the user out of the cache, or fails as the outside says and changes
nothing. -/
theorem cacheRemove_ensures (outside : Outside) (user : String) (site : Site) :
    Ensures (cacheRemove outside user) site fun result later => ∃ faded, site.Fades outside faded ∧
      ((result = .ok () ∧ later = faded.drop user) ∨
        (∃ failure, result = .error failure ∧
          outside.cacheFault site.calls (.remove user) = some failure ∧ later = faded)) := by
  refine ⟨site.atCall outside, site.fades_atCall outside, ?_⟩
  simp only [cacheRemove, StateT.run]
  split
  · next failure hfault => exact .inr ⟨failure, rfl, hfault, rfl⟩
  · exact .inl ⟨rfl, rfl⟩

/-- A purge leaves an empty cache, or fails as the outside says and changes nothing. -/
theorem cachePurge_ensures (outside : Outside) (site : Site) :
    Ensures (cachePurge outside) site fun result later => ∃ faded, site.Fades outside faded ∧
      ((result = .ok () ∧ later = faded.clear) ∨
        (∃ failure, result = .error failure ∧
          outside.cacheFault site.calls .purge = some failure ∧ later = faded)) := by
  refine ⟨site.atCall outside, site.fades_atCall outside, ?_⟩
  simp only [cachePurge, StateT.run]
  split
  · next failure hfault => exact .inr ⟨failure, rfl, hfault, rfl⟩
  · exact .inl ⟨rfl, rfl⟩

/-- Whether a purge works or fails, nothing new has come into the cache. -/
theorem cachePurge_rests (outside : Outside) (site : Site) :
    Ensures (cachePurge outside) site fun _ later => site.Rests later := by
  refine (cachePurge_ensures outside site).mono fun result later hcall => ?_
  obtain ⟨faded, hfades, ⟨-, rfl⟩ | ⟨failure, -, -, rfl⟩⟩ := hcall
  · exact hfades.toRests.clear
  · exact hfades.toRests

/-- A call to the store gives and does what it is made for, or fails as the outside says and
changes nothing. -/
theorem storeCall_ensures {α : Type} (outside : Outside) (call : StoreCall)
    (run : Store → Except Failure α × Store) (site : Site) :
    Ensures (storeCall outside call run) site fun result later =>
      ∃ faded, site.Fades outside faded ∧
        ((result = (run site.store).1.mapError .refused ∧
            later = faded.withStore (run site.store).2) ∨
          (∃ fault, result = .error fault ∧ outside.storeFault site.calls call = some fault ∧
            later = faded)) := by
  refine ⟨{ site.atCall outside with asked := site.asked ++ [call] },
    { site.fades_atCall outside with }, ?_⟩
  simp only [storeCall, StateT.run]
  split
  · next fault hfault => exact .inr ⟨fault, rfl, hfault, rfl⟩
  · exact .inl ⟨rfl, rfl⟩

/-- A call that reads rows gives what they are, or fails as the outside says. It changes
nothing. -/
theorem storeRead_ensures {α : Type} (outside : Outside) (call : StoreCall)
    (read : Store → Except Failure α) (site : Site) :
    Ensures (storeCall outside call fun store => (read store, store)) site fun result later =>
      site.Fades outside later ∧ (result = (read site.store).mapError .refused ∨
        ∃ fault, result = .error fault ∧ outside.storeFault site.calls call = some fault) := by
  refine (storeCall_ensures outside call _ site).mono fun result later h => ?_
  obtain ⟨faded, hfades, ⟨rfl, rfl⟩ | ⟨fault, rfl, hfault, rfl⟩⟩ := h
  · exact ⟨{ hfades with store := rfl }, .inl rfl⟩
  · exact ⟨hfades, .inr ⟨fault, rfl, hfault⟩⟩

/-- A row that is read is the user's row. -/
theorem storeGet_ensures (outside : Outside) (user : String) (site : Site) :
    Ensures (storeGet outside user) site fun result later => site.Fades outside later ∧
      ∀ record, result = .ok record → site.store[user]? = some record := by
  refine (storeRead_ensures outside _ (fun store => store.find user) site).mono
    fun result later h => ⟨h.1, fun record hok => ?_⟩
  rcases h.2 with rfl | ⟨fault, rfl, -⟩
  · cases hfind : site.store.find user with
    | error failure => rw [hfind] at hok; cases hok
    | ok found =>
      rw [hfind] at hok
      cases hok
      exact (Store.find_eq_ok_iff site.store user record).mp hfind
  · cases hok

/-- A full write puts the row into the store, or reports a failure and changes nothing. -/
theorem storeSave_ensures (outside : Outside) (record : Record) (site : Site) :
    Ensures (storeSave outside record) site fun result later => ∃ faded, site.Fades outside faded ∧
      ((∃ saved, site.store.save record = .ok saved ∧ result = .ok () ∧
          later = faded.withStore saved) ∨
        ((∃ fault, result = .error fault) ∧ later = faded)) := by
  refine (storeCall_ensures outside (.save record) _ site).mono fun result later h => ?_
  obtain ⟨faded, hfades, ⟨rfl, rfl⟩ | ⟨fault, rfl, -, rfl⟩⟩ := h
  · refine ⟨faded, hfades, ?_⟩
    cases hsave : site.store.save record with
    | error failure =>
      refine .inr ⟨⟨.refused failure, rfl⟩, ?_⟩
      show { faded with store := site.store } = faded
      rw [← hfades.store]
    | ok saved => exact .inl ⟨saved, rfl, rfl, rfl⟩
  · exact ⟨later, hfades, .inr ⟨⟨fault, rfl⟩, rfl⟩⟩

/-- A call that changes rows gives its value and changes them, or fails as the outside says
and changes nothing. -/
theorem storeChange_ensures {α : Type} (outside : Outside) (call : StoreCall) (value : Store → α)
    (change : Store → Store) (site : Site) :
    Ensures (storeCall outside call fun store => (.ok (value store), change store)) site
      fun result later => ∃ faded, site.Fades outside faded ∧
        ((result = .ok (value site.store) ∧ later = faded.withStore (change site.store)) ∨
          (∃ fault, result = .error fault ∧ outside.storeFault site.calls call = some fault ∧
            later = faded)) := by
  refine (storeCall_ensures outside call _ site).mono fun result later h => ?_
  obtain ⟨faded, hfades, ⟨rfl, rfl⟩ | hfails⟩ := h
  · exact ⟨faded, hfades, .inl ⟨rfl, rfl⟩⟩
  · exact ⟨faded, hfades, .inr hfails⟩

/-- A write of the activity touches the row, or fails and changes nothing. -/
theorem storeTouch_ensures (outside : Outside) (user : String) (moment : Moment) (site : Site) :
    Ensures (storeTouch outside user moment) site fun result later =>
      ∃ faded, site.Fades outside faded ∧
        ((result = .ok () ∧ later = faded.withStore (site.store.touch user moment)) ∨
          (∃ fault, result = .error fault ∧
            outside.storeFault site.calls (.touch user moment) = some fault ∧ later = faded)) :=
  storeChange_ensures outside (.touch user moment) (fun _ => ()) (·.touch user moment) site

/-- A sweep turns the rows and gives them back in the order of the store, or fails and changes
nothing. -/
theorem storeSweep_ensures (outside : Outside) (now : Moment) (site : Site) :
    Ensures (storeSweep outside now) site fun result later => ∃ faded, site.Fades outside faded ∧
      ((result = .ok (site.turned outside now) ∧
          later = faded.withStore (site.store.sweep now)) ∨
        (∃ fault, result = .error fault ∧
          outside.storeFault site.calls (.sweep now) = some fault ∧ later = faded)) :=
  storeChange_ensures outside (.sweep now) (fun _ => site.turned outside now) (·.sweep now) site

/-- A deletion takes the row out of the store, or fails and changes nothing. -/
theorem storeDelete_ensures (outside : Outside) (user : String) (site : Site) :
    Ensures (storeDelete outside user) site fun result later => ∃ faded, site.Fades outside faded ∧
      ((result = .ok () ∧ later = faded.withStore (site.store.delete user)) ∨
        (∃ fault, result = .error fault ∧
          outside.storeFault site.calls (.delete user) = some fault ∧ later = faded)) :=
  storeChange_ensures outside (.delete user) (fun _ => ()) (·.delete user) site

/-- Rows that are read are rows of the store. -/
theorem storeGetMany_ensures (outside : Outside) (users : List String) (site : Site) :
    Ensures (storeGetMany outside users) site fun result later => site.Fades outside later ∧
      ∀ records, result = .ok records → records = site.store.findMany users := by
  refine (storeRead_ensures outside (.getMany users) (fun store => .ok (store.findMany users))
    site).mono fun result later h => ⟨h.1, fun records hok => ?_⟩
  rcases h.2 with rfl | ⟨fault, rfl, -⟩
  · cases hok
    rfl
  · cases hok

end Engine

end PresenceTracker
