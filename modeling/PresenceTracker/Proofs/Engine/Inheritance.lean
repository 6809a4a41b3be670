import PresenceTracker.Proofs.Engine.Coherence
import PresenceTracker.Proofs.Engine.Frame
import PresenceTracker.Proofs.Engine.Run
import PresenceTracker.Proofs.Record.Shape

/-!
# What every record of a node has

A property that is handed on by everything that makes records is kept by every operation,
whichever calls fail: if the rows, the cached records and the records told to other nodes
have it before an operation, they have it afterwards, and so does every record that the
operation gives back. What is only cached may have less than what is stored and told, since a
last activity that is set in a cache is not checked.
-/

namespace PresenceTracker

/-- The record that an event carries has a property, if it carries one. -/
def Event.Carries (holds : Record → Prop) (event : Event) : Prop :=
  ∀ record, event = .updateStatus record → holds record

/-- An event for clients carries no record. -/
theorem Event.carries_presenceChanged (holds : Record → Prop) (presence : PresenceEvent) :
    (Event.presenceChanged presence).Carries holds := fun _ => nofun

/-- An invalidation carries no record. -/
theorem Event.carries_invalidateCache (holds : Record → Prop) (topic : Topic)
    (key : Option String) : (Event.invalidateCache topic key).Carries holds := fun _ => nofun

/-- The records that an answer gives have a property. -/
def Answer.Gives (holds : Record → Prop) : Answer → Prop
  | .record given => holds given
  | .records given => ∀ one ∈ given, holds one
  | .done => True

/-- A record that is given back has a property, or is the default record of a user. -/
def Record.OrDefault (holds : Record → Prop) (record : Record) : Prop :=
  holds record ∨ ∃ user, record = .offlineDefault user

/-- Setting the last activity of a cached record, if an operation does so, keeps a property. -/
def Operation.Notes (cached : Record → Prop) : Operation → Prop
  | setLastActivity _ moment => ∀ record, cached record →
      cached { record with lastActivity := moment }
  | _ => True

/-- Every record of a site has a property: one for rows and for what is told to other nodes, and
another one for what is cached. -/
structure Site.Has (stored cached : Record → Prop) (site : Site) : Prop where
  /-- Every row has the first. -/
  rows : ∀ (user : String) (row : Record), site.store[user]? = some row → stored row
  /-- Every cached record has the second. -/
  cached : ∀ user record, site.cached? user = some record → cached record
  /-- Every record told to other nodes has the first. -/
  published : ∀ event ∈ site.published, event.Carries stored

namespace Site.Has

variable {stored cached : Record → Prop} {site later : Site}

/-- What is taken over from the rows into a cache has the property of cached records. -/
theorem refills (h : site.Has stored cached) (hstored : ∀ record, stored record → cached record)
    (hrefills : site.Refills later) : later.Has stored cached where
  rows := hrefills.store ▸ h.rows
  cached user record hcached := by
    rcases hrefills.cached user record hcached with hbefore | hrow
    · exact h.cached user record hbefore
    · exact hstored record (h.rows user record hrow)
  published := hrefills.published ▸ h.published

/-- While a site rests nothing comes to it that would have to have a property. -/
theorem rests (h : site.Has stored cached) (hrests : site.Rests later) :
    later.Has stored cached where
  rows := hrests.store ▸ h.rows
  cached user record hcached := h.cached user record (hrests.cached? hcached)
  published := hrests.published ▸ h.published

/-- A record with the property of cached records may be cached. -/
theorem hold (h : site.Has stored cached) {record : Record} (hrecord : cached record) :
    (site.hold record).Has stored cached where
  rows := h.rows
  cached user other hcached := by
    rw [cached?_hold] at hcached
    split at hcached
    · cases hcached
      exact hrecord
    · exact h.cached user other hcached
  published := h.published

/-- A removal from the cache leaves only records that were there before. -/
theorem drop (h : site.Has stored cached) (gone : String) : (site.drop gone).Has stored cached where
  rows := h.rows
  cached user record hcached := by
    rw [cached?_drop] at hcached
    split at hcached
    · cases hcached
    · exact h.cached user record hcached
  published := h.published

/-- The property of rows, as a statement about the whole store. -/
theorem every (h : site.Has stored cached) : site.store.Every fun _ row => stored row := h.rows

/-- The rows may be replaced by others that have their property. -/
theorem withStore (h : site.Has stored cached) {store : Store}
    (hrows : store.Every fun _ row => stored row) : (site.withStore store).Has stored cached :=
  ⟨hrows, h.cached, h.published⟩

/-- A record with the property of rows may be told to other nodes. -/
theorem publish (h : site.Has stored cached) {event : Event} (hevent : event.Carries stored) :
    Has stored cached { site with published := site.published ++ [event] } where
  rows := h.rows
  cached := h.cached
  published other hmem := by
    rcases List.mem_append.mp hmem with hbefore | hnew
    · exact h.published other hbefore
    · exact List.mem_singleton.mp hnew ▸ hevent

end Site.Has

/-- No call changes the clock. -/
theorem Site.clock_frame (outside : Outside) :
    FullFrame outside fun site later => later.clock = site.clock where
  refl _ := rfl
  trans h h' := h'.trans h
  fades h _ := h.clock
  asks _ _ h _ := h.clock
  hold _ _ := rfl
  drop _ _ := rfl
  clear _ := rfl
  tell _ _ _ _ := rfl
  broadcast _ _ := rfl
  release _ _ := ensures_modify (by split <;> rfl)
  writes _ _ h _ _ := h.clock
  slots _ _ := rfl

namespace Engine

open Site

variable {stored cached : Record → Prop} {outside : Outside} {site : Site}

section Parts

/-- A look-up in the cache gives a record with the property of cached records. -/
theorem cacheGet_has (h : site.Has stored cached) (user : String) :
    Ensures (cacheGet outside user) site fun found later => later.Has stored cached ∧
      ∀ record, found = .ok (some record) → cached record := by
  refine (cacheGet_ensures outside user site).mono fun found later hlater => ?_
  have hhas := h.rests hlater.1.toRests
  exact ⟨hhas, fun record hfound => hhas.cached user record (hlater.2 record hfound)⟩

/-- A write to the cache keeps the properties, whether it fails or not. -/
theorem cachePut_has (h : site.Has stored cached) {record : Record} (hrecord : cached record) :
    Ensures (cachePut outside record) site fun _ later => later.Has stored cached := by
  refine (cachePut_ensures outside record site).mono fun result later hlater => ?_
  obtain ⟨faded, hfades, ⟨-, rfl⟩ | ⟨failure, -, -, rfl⟩⟩ := hlater
  · exact (h.rests hfades.toRests).hold hrecord
  · exact h.rests hfades.toRests

/-- A removal from the cache keeps the properties, whether it fails or not. -/
theorem cacheRemove_has (h : site.Has stored cached) (user : String) :
    Ensures (cacheRemove outside user) site fun _ later => later.Has stored cached := by
  refine (cacheRemove_ensures outside user site).mono fun result later hlater => ?_
  obtain ⟨faded, hfades, ⟨-, rfl⟩ | ⟨failure, -, -, rfl⟩⟩ := hlater
  · exact (h.rests hfades.toRests).drop user
  · exact h.rests hfades.toRests

/-- A purge keeps the properties, whether it fails or not. -/
theorem cachePurge_has (h : site.Has stored cached) :
    Ensures (cachePurge outside) site fun _ later => later.Has stored cached :=
  (cachePurge_rests outside site).mono fun _ _ hrests => h.rests hrests

/-- A read of a row gives a record with the property of rows. -/
theorem storeGet_has (h : site.Has stored cached) (user : String) :
    Ensures (storeGet outside user) site fun result later => later.Has stored cached ∧
      ∀ record, result = .ok record → stored record := by
  refine (storeGet_ensures outside user site).mono fun result later hlater => ?_
  exact ⟨h.rests hlater.1.toRests, fun record hok => h.rows user record (hlater.2 record hok)⟩

/-- An event whose record has the property of rows may be told to the peers. -/
theorem publishToPeers_has (h : site.Has stored cached) {event : Topic → Event}
    (hevent : ∀ topic, (event topic).Carries stored) :
    Ensures (publishToPeers event) site fun _ later => later.Has stored cached := by
  refine ensures_get_bind ?_
  split
  · exact ensures_modify (h.publish (hevent site.topic))
  · exact ensures_pure h

/-- What is shown to clients carries no record, so it may be about any one. -/
theorem broadcast_has (h : site.Has stored cached) (record : Record) :
    Ensures (broadcast record) site fun _ later => later.Has stored cached := by
  have hshow := showClients_ensures record.presence site
  refine hshow.bind fun _ later hcall => ?_
  subst hcall
  have hshown : Has stored cached { site with shown := site.shown ++ [record.presence] } :=
    ⟨h.rows, h.cached, h.published⟩
  exact ensures_modify (hshown.publish (Event.carries_presenceChanged stored record.presence))

end Parts

/-- A record that is loaded has the property of cached records, be it cached, stored or made up. -/
theorem load_has (hlineage : Record.Lineage site.clock stored cached)
    (h : site.Has stored cached) {user : String} (huser : Record.checkUser user = .ok ()) :
    Ensures (load outside user) site fun result later => later.Has stored cached ∧
      ∀ current, result = .ok current → cached current.record := by
  have hlook : Ensures (cacheGet outside user) site _ := cacheGet_has h user
  refine hlook.bind fun found looked hrun => ?_
  obtain ⟨hlooked, hfound⟩ := hrun
  split
  · next record =>
    have hcurrent : cached record := hfound record rfl
    exact ensures_pure ⟨hlooked, of_eq_ok hcurrent⟩
  · have hread : Ensures (storeGet outside user) looked _ := storeGet_has hlooked user
    refine hread.bind fun result later hrun => ?_
    obtain ⟨hlater, hrow⟩ := hrun
    split
    · next record =>
      have hcurrent : cached record := hlineage.weaker record (hrow record rfl)
      exact ensures_pure ⟨hlater, of_eq_ok hcurrent⟩
    · split
      · exact ensures_pure ⟨hlater, of_eq_ok (hlineage.default user huser)⟩
      · exact ensures_pure ⟨hlater, fun _ => nofun⟩
    · exact ensures_pure ⟨hlater, fun _ => nofun⟩

/-- A record with the property of rows may be cached and told to the other nodes. -/
theorem cacheAndSync_has (h : site.Has stored cached)
    (hweaker : ∀ record, stored record → cached record) {record : Record}
    (hrecord : stored record) :
    Ensures (cacheAndSync outside record) site fun _ later => later.Has stored cached := by
  have htell : ∀ later, later.Has stored cached →
      Ensures (publishToPeers fun _ => .updateStatus record) later fun _ last =>
        last.Has stored cached := by
    intro later hlater
    refine publishToPeers_has hlater fun _ other hother => ?_
    cases hother
    exact hrecord
  refine (cachePut_has h (hweaker record hrecord)).bind fun result later hlater => ?_
  split
  · exact htell later hlater
  · exact (cacheRemove_has hlater record.userId).bind fun _ last hlast => htell last hlast

/-- What is written to the store, all of it or just the activity, has what a row has. -/
theorem persist_has (h : site.Has stored cached) {user : String} {current : Current}
    {next : Record}
    (hsaved : current.needsFullSave next = true → next.validate = .ok () → stored next)
    (htouched : current.needsFullSave next = false → stored next ∧
      ∀ row, stored row → stored { row with lastActivity := next.lastActivity }) :
    Ensures (persist outside user current next) site fun result later =>
      later.Has stored cached ∧ (result = .ok () → stored next) := by
  have hnote : ∀ later, later.Has stored cached → stored next →
      Ensures (do notePersisted user; return Except.ok ()) later
        fun (result : Except StoreFault Unit) last => last.Has stored cached ∧
          (result = .ok () → stored next) := fun later hlater hnext =>
    (notePersisted_rests user later).bind fun _ last hrests =>
      ensures_pure ⟨hlater.rests hrests, fun _ => hnext⟩
  unfold persist
  split
  · next hfull =>
    split
    · exact ensures_pure ⟨h, nofun⟩
    · next hvalid =>
      have hnext : stored next := hsaved hfull hvalid
      have hwrite := storeSave_ensures outside next site
      refine hwrite.bind fun result later hcall => ?_
      obtain ⟨faded, hfades, ⟨saved, hsave, rfl, rfl⟩ | ⟨⟨fault, rfl⟩, rfl⟩⟩ := hcall
      · have hwritten : (faded.withStore saved).Has stored cached :=
          (h.rests hfades.toRests).withStore (h.every.save hsave hnext)
        exact hnote _ hwritten hnext
      · exact ensures_pure ⟨h.rests hfades.toRests, nofun⟩
  · next hpartial =>
    obtain ⟨hnext, hrow⟩ := htouched (by simpa using hpartial)
    refine ensures_get_bind ?_
    split
    · exact ensures_pure ⟨h, fun _ => hnext⟩
    · have htouch := storeTouch_ensures outside next.userId next.lastActivity site
      refine htouch.bind fun result later hcall => ?_
      obtain ⟨faded, hfades, ⟨rfl, rfl⟩ | ⟨fault, rfl, -, rfl⟩⟩ := hcall
      · have hrows := h.every.touch next.userId next.lastActivity hrow
        exact hnote _ ((h.rests hfades.toRests).withStore hrows) hnext
      · cases fault with
        | refused failure => exact ensures_pure ⟨h.rests hfades.toRests, fun _ => hnext⟩
        | killed => exact ensures_pure ⟨h.rests hfades.toRests, nofun⟩

/-- A transition that is committed leaves a record with the properties, as they pass from the
current record to the next one. -/
theorem commit_has {now timeout : Moment} (hlineage : Record.Lineage now stored cached)
    (h : site.Has stored cached) {user : String} {transition : Transition} {current : Current}
    {next : Record} (hcurrent : cached current.record)
    (hdecision : transition.decision current now timeout = .ok (.apply next)) :
    Ensures (commit outside user current next) site fun result later =>
      later.Has stored cached ∧ ∀ record, result = .ok record → cached record := by
  unfold commit
  split
  · next hsame =>
    obtain ⟨-, rfl⟩ : current.persisted = true ∧ next = current.record := by simpa using hsame
    exact ensures_pure ⟨h, of_eq_ok hcurrent⟩
  · next hother =>
    have hwrite : Ensures (persist outside user current next) site _ :=
      persist_has h (hlineage.saved transition current timeout next hcurrent hdecision)
        fun hpartial => by
          have hpersisted : current.persisted = true := by
            simp only [Current.needsFullSave, Bool.or_eq_false_iff] at hpartial
            simpa using hpartial.1.1.1.1.1
          exact hlineage.touched transition current timeout next hcurrent hdecision hpartial
            fun heq => hother (by simp [hpersisted, heq])
    refine hwrite.bind fun result later hrun => ?_
    obtain ⟨hlater, hstored⟩ := hrun
    split
    · refine ensures_pure ⟨hlater, fun record hresult => ?_⟩
      cases hresult
    · have hnext : stored next := hstored rfl
      have hgiven : cached next := hlineage.weaker next hnext
      refine (cacheAndSync_has hlater hlineage.weaker hnext).bind fun _ synced hsynced => ?_
      split
      · exact (broadcast_has hsynced next).bind fun _ last hlast =>
          ensures_pure ⟨hlast, of_eq_ok hgiven⟩
      · exact ensures_pure ⟨hsynced, of_eq_ok hgiven⟩

/-- The record that a transition gives has the property of cached records. -/
theorem perform_has (hlineage : Record.Lineage site.clock stored cached)
    (h : site.Has stored cached) {user : String} (huser : Record.checkUser user = .ok ())
    (transition : Transition) :
    Ensures (perform outside user transition) site fun result later =>
      later.Has stored cached ∧ ∀ record, result = .ok record → cached record := by
  have hload : Ensures (load outside user) site _ := (load_has hlineage h huser).and
    (load_frame (clock_frame outside).toFrame user site)
  refine hload.bind fun result loaded hrun => ?_
  obtain ⟨⟨hloaded, hcurrent⟩, hclock⟩ := hrun
  split
  · exact ensures_pure ⟨hloaded, fun _ => nofun⟩
  · next current =>
    have hrecord := hcurrent current rfl
    refine ensures_get_bind ?_
    split
    · exact ensures_pure ⟨hloaded, fun _ => nofun⟩
    · exact ensures_pure ⟨hloaded, of_eq_ok hrecord⟩
    · next next hdecision => exact commit_has (hclock ▸ hlineage) hloaded hrecord hdecision

/-- So has the one that a change gives, unless it is the default record, which a node with tracking
disabled gives. -/
theorem change_has (hlineage : Record.Lineage site.clock stored cached)
    (h : site.Has stored cached) (user : String) (transition : Transition) :
    Ensures (change outside user transition) site fun result later =>
      later.Has stored cached ∧ ∀ record, result = .ok record → record.OrDefault cached := by
  refine ensures_get_bind ?_
  split
  · exact ensures_pure ⟨h, of_eq_ok (.inr ⟨user, rfl⟩)⟩
  · split
    · exact ensures_pure ⟨h, fun _ => nofun⟩
    · next huser =>
      have hperform : Ensures (perform outside user transition) site _ :=
        perform_has hlineage h huser transition
      refine hperform.bind fun result later hrun => ?_
      obtain ⟨hlater, hrecord⟩ := hrun
      refine (release_rests user later).bind fun _ last hrests => ?_
      exact ensures_pure ⟨hlater.rests hrests, fun record hok =>
        .inl (hrecord record (taskResult_eq_ok_iff.mp hok))⟩

/-- A row may be taken over into the cache. -/
theorem backfill_has (h : site.Has stored cached) {record : Record} (hrecord : cached record) :
    Ensures (backfill outside record) site fun _ later => later.Has stored cached := by
  have hlook : Ensures (cacheGet outside record.userId) site _ := cacheGet_has h record.userId
  refine hlook.bind fun found looked hrun => ?_
  obtain ⟨hlooked, -⟩ := hrun
  split
  · exact (release_rests record.userId looked).mono fun _ last hrests => hlooked.rests hrests
  · refine (cachePut_has hlooked hrecord).bind fun _ later hlater => ?_
    exact (release_rests record.userId later).mono fun _ last hrests => hlater.rests hrests

/-- A read gives a record with the property of cached records, or the default record. -/
theorem read_has (hweaker : ∀ record, stored record → cached record)
    (h : site.Has stored cached) (user : String) :
    Ensures (read outside user) site fun result later => later.Has stored cached ∧
      ∀ record, result = .ok record → record.OrDefault cached := by
  refine ensures_get_bind ?_
  split
  · exact ensures_pure ⟨h, of_eq_ok (.inr ⟨user, rfl⟩)⟩
  · split
    · exact ensures_pure ⟨h, fun _ => nofun⟩
    · have hlook : Ensures (cacheGet outside user) site _ := cacheGet_has h user
      refine hlook.bind fun found looked hrun => ?_
      obtain ⟨hlooked, hfound⟩ := hrun
      split
      · next known =>
        have hknown : cached known := hfound known rfl
        exact ensures_pure ⟨hlooked, of_eq_ok (.inl hknown)⟩
      · have hread : Ensures (storeGet outside user) looked _ := storeGet_has hlooked user
        refine hread.bind fun result later hrun => ?_
        obtain ⟨hlater, hrow⟩ := hrun
        split
        · next row =>
          have hgiven : cached row := hweaker row (hrow row rfl)
          exact (backfill_has hlater hgiven).bind fun _ last hlast =>
            ensures_pure ⟨hlast, of_eq_ok (.inl hgiven)⟩
        · split
          · exact ensures_pure ⟨hlater, fun _ => nofun⟩
          · exact ensures_pure ⟨hlater, fun _ => nofun⟩
        · exact ensures_pure ⟨hlater, fun _ => nofun⟩

/-- A read that falls back on the default record gives no other one without the property. -/
theorem readOrDefault_has (hweaker : ∀ record, stored record → cached record)
    (h : site.Has stored cached) (user : String) :
    Ensures (readOrDefault outside user) site fun record later => later.Has stored cached ∧
      record.OrDefault cached := by
  have hread : Ensures (read outside user) site _ := read_has hweaker h user
  refine hread.bind fun result later hrun => ?_
  obtain ⟨hlater, hrecord⟩ := hrun
  split
  · next record => exact ensures_pure ⟨hlater, hrecord record rfl⟩
  · exact ensures_pure ⟨hlater, .inr ⟨user, rfl⟩⟩

/-- Every record found so far has the property. -/
def AllFound (holds : Record → Prop) (found : Table Record) : Prop :=
  ∀ (user : String) (record : Record), found[user]? = some record → holds record

/-- A record with a property may be added to those that have it. -/
theorem AllFound.insert {found : Table Record} (h : AllFound holds found) {record : Record}
    (hrecord : holds record) (user : String) : AllFound holds (found.insert user record) := by
  intro other known hknown
  rw [Table.get?_insert] at hknown
  split at hknown
  · cases hknown
    exact hrecord
  · exact h other known hknown

/-- What is taken from what was found has the property. -/
theorem AllFound.takeFirst {found : Table Record} (h : AllFound holds found)
    (users : List String) : ∀ record ∈ takeFirst found users, holds record := by
  induction users generalizing found with
  | nil =>
    intro record hmem
    cases hmem
  | cons user rest ih =>
    rw [Engine.takeFirst]
    split
    · next record hrecord =>
      intro other hmem
      rcases List.mem_cons.mp hmem with rfl | hrest
      · exact h user other hrecord
      · refine ih (fun key known hknown => ?_) other hrest
        rw [Table.get?_erase] at hknown
        split at hknown
        · cases hknown
        · exact h key known hknown
    · exact ih h

/-- Each cached record that is gathered has the property of cached records. -/
theorem gatherOne_has (h : site.Has stored cached) {gathered : Gathered}
    (hfound : AllFound cached gathered.found) (user : String) :
    Ensures (gatherOne outside gathered user) site fun gathered later => later.Has stored cached ∧
      AllFound cached gathered.found := by
  unfold gatherOne
  split
  · exact ensures_pure ⟨h, hfound⟩
  · have hlook : Ensures (cacheGet outside user) site _ := cacheGet_has h user
    refine hlook.bind fun found looked hrun => ?_
    obtain ⟨hlooked, hrecord⟩ := hrun
    split
    · next record => exact ensures_pure ⟨hlooked, hfound.insert (hrecord record rfl) user⟩
    · exact ensures_pure ⟨hlooked, hfound⟩

/-- A read of several users gives records with the property of cached records only. -/
theorem readMany_has (hweaker : ∀ record, stored record → cached record)
    (h : site.Has stored cached) (users : List String) :
    Ensures (readMany outside users) site fun result later => later.Has stored cached ∧
      ∀ records, result = .ok records → ∀ record ∈ records, cached record := by
  refine ensures_get_bind ?_
  split
  · exact ensures_pure ⟨h, of_eq_ok (List.forall_mem_nil cached)⟩
  · have hgather : Ensures (users.foldlM (gatherOne outside) {}) site fun gathered later =>
        later.Has stored cached ∧ AllFound cached gathered.found := by
      refine ensures_foldlM (fun _ (gathered : Gathered) (later : Site) => later.Has stored cached ∧
        AllFound cached gathered.found) (fun gathered user rest later hlater =>
          gatherOne_has hlater.1 hlater.2 user) ⟨h, fun user record hrecord => ?_⟩
      simp at hrecord
    refine hgather.bind fun gathered looked hrun => ?_
    obtain ⟨hlooked, hfound⟩ := hrun
    split
    · exact ensures_pure ⟨hlooked, of_eq_ok (hfound.takeFirst users)⟩
    · have hread := storeGetMany_ensures outside gathered.missing looked
      refine hread.bind fun result later hcall => ?_
      obtain ⟨hfades, hrows⟩ := hcall
      have hlater := hlooked.rests hfades.toRests
      split
      · next records =>
        have hrecords : ∀ record ∈ records, cached record := by
          intro record hmem
          rw [hrows records rfl] at hmem
          obtain ⟨user, -, hrow⟩ := List.mem_filterMap.mp hmem
          exact hweaker record (hlooked.rows user record hrow)
        have hfill : Ensures (records.foldlM (gatherStored outside) gathered.found) later
            fun found last => last.Has stored cached ∧ AllFound cached found := by
          have hstart : later.Has stored cached ∧ AllFound cached gathered.found ∧
              ∀ record ∈ records, cached record := ⟨hlater, hfound, hrecords⟩
          refine (ensures_foldlM (fun rest found last => last.Has stored cached ∧
            AllFound cached found ∧ ∀ record ∈ rest, cached record) ?_ hstart).mono
              fun _ last hlast => ⟨hlast.1, hlast.2.1⟩
          intro found record rest last hround
          obtain ⟨hlast, hsofar, hrest⟩ := hround
          have hrecord := hrest record List.mem_cons_self
          exact (backfill_has hlast hrecord).bind fun _ filled hfilled =>
            ensures_pure ⟨hfilled, hsofar.insert hrecord record.userId, fun other hmem =>
              hrest other (List.mem_cons_of_mem record hmem)⟩
        refine hfill.bind fun found last hrun => ?_
        obtain ⟨hlast, hall⟩ := hrun
        exact ensures_pure ⟨hlast, of_eq_ok (hall.takeFirst users)⟩
      · exact ensures_pure ⟨hlater, of_eq_ok (hfound.takeFirst users)⟩
      · exact ensures_pure ⟨hlater, fun _ => nofun⟩

/-- A last activity may be set in the cache if the property of cached records does not depend on
it. -/
theorem cacheActivity_has (hlineage : Record.Lineage site.clock stored cached)
    (h : site.Has stored cached) {user : String} (huser : Record.checkUser user = .ok ())
    {moment : Moment}
    (hnotes : ∀ record, cached record → cached { record with lastActivity := moment }) :
    Ensures (cacheActivity outside user moment) site fun _ later => later.Has stored cached := by
  have hload : Ensures (load outside user) site _ := load_has hlineage h huser
  refine hload.bind fun result loaded hrun => ?_
  obtain ⟨hloaded, hcurrent⟩ := hrun
  split
  · exact ensures_pure hloaded
  · next current =>
    split
    · have hrecord := hnotes current.record (hcurrent current rfl)
      exact (cachePut_has hloaded hrecord).bind fun _ later hlater => ensures_pure hlater
    · exact ensures_pure hloaded

/-- Setting the last activity keeps the properties under the same condition. -/
theorem setLastActivity_has (hlineage : Record.Lineage site.clock stored cached)
    (h : site.Has stored cached) (user : String) {moment : Moment}
    (hnotes : ∀ record, cached record → cached { record with lastActivity := moment }) :
    Ensures (setLastActivity outside user moment) site fun _ later =>
      later.Has stored cached := by
  refine ensures_get_bind ?_
  split
  · exact ensures_pure h
  · split
    · exact ensures_pure h
    · next huser =>
      have hframe := clock_frame outside
      have hnote : Ensures (cacheActivity outside user moment) site _ :=
        (cacheActivity_has hlineage h huser hnotes).and
          (cacheActivity_frame hframe.toFrame user moment site)
      refine hnote.bind fun known later hrun => ?_
      obtain ⟨hlater, hclock⟩ := hrun
      have hrelease := (release_rests user later).and (hframe.release later user)
      refine hrelease.bind fun _ last hrun => ?_
      obtain ⟨hrests, hclock'⟩ := hrun
      have hlast := hlater.rests hrests
      have hnow : last.clock = site.clock := hclock'.trans hclock
      split
      · exact ensures_pure hlast
      · exact ensures_pure hlast
      · exact ensures_pure hlast
      · exact (change_has (hnow ▸ hlineage) hlast user (.away false)).bind fun _ done hdone =>
          ensures_pure hdone.1

/-- The deletion of a row and of its cached record leaves only records that were there before. -/
theorem delete_has (h : site.Has stored cached) (user : String) :
    Ensures (delete outside user) site fun _ later => later.Has stored cached := by
  have hdelete := storeDelete_ensures outside user site
  refine hdelete.bind fun result later hcall => ?_
  obtain ⟨faded, hfades, ⟨rfl, rfl⟩ | ⟨fault, rfl, -, rfl⟩⟩ := hcall
  · have hdeleted : (faded.withStore (site.store.delete user)).Has stored cached :=
      (h.rests hfades.toRests).withStore (h.every.delete user)
    refine (cacheRemove_has hdeleted user).bind fun _ dropped hdropped => ?_
    refine (publishToPeers_has hdropped fun topic =>
      Event.carries_invalidateCache stored topic (some user)).bind fun _ told htold => ?_
    refine (forget_rests user told).bind fun _ last hrests => ?_
    exact ensures_pure (htold.rests hrests)
  · exact ensures_pure (h.rests hfades.toRests)

/-- The removal of a user leaves only records that were there before. -/
theorem remove_has (h : site.Has stored cached) (user : String) :
    Ensures (remove outside user) site fun _ later => later.Has stored cached := by
  refine ensures_get_bind ?_
  split
  · exact ensures_pure h
  · split
    · exact ensures_pure h
    · refine (delete_has h user).bind fun _ later hlater => ?_
      refine (release_rests user later).bind fun _ last hrests => ?_
      exact ensures_pure (hlater.rests hrests)

/-- Emptied caches hold nothing that would have to have a property. -/
theorem clearCaches_has (h : site.Has stored cached) :
    Ensures (clearCaches outside) site fun _ later => later.Has stored cached := by
  refine ensures_get_bind ?_
  split
  · exact ensures_pure h
  · refine (cachePurge_has h).bind fun result purged hpurged => ?_
    split
    · exact ensures_pure hpurged
    · exact (publishToPeers_has hpurged fun topic =>
        Event.carries_invalidateCache stored topic none).bind fun _ last hlast => ensures_pure hlast

/-- A row that was turned has the property of rows, and may be spread. -/
theorem propagate_has (h : site.Has stored cached)
    (hweaker : ∀ record, stored record → cached record) {record : Record}
    (hrecord : stored record) (now : Moment) :
    Ensures (propagate outside now record) site fun _ later => later.Has stored cached := by
  have hrelease : ∀ later, later.Has stored cached →
      Ensures (release record.userId) later fun _ last => last.Has stored cached :=
    fun later hlater =>
      (release_rests record.userId later).mono fun _ last hrests => hlater.rests hrests
  have hspread : ∀ looked, looked.Has stored cached →
      Ensures (do cacheAndSync outside record; broadcast record; release record.userId) looked
        fun _ later => later.Has stored cached := fun looked hlooked =>
    (cacheAndSync_has hlooked hweaker hrecord).bind fun _ synced hsynced =>
      (broadcast_has hsynced record).bind fun _ shown hshown => hrelease shown hshown
  refine (noteSwept_rests record.userId now site).bind fun _ noted hnoted => ?_
  have hlook : Ensures (cacheGet outside record.userId) noted _ :=
    cacheGet_has (h.rests hnoted) record.userId
  refine hlook.bind fun found looked hrun => ?_
  obtain ⟨hlooked, -⟩ := hrun
  split
  · split
    · exact hspread looked hlooked
    · exact hrelease looked hlooked
  · exact hspread looked hlooked

/-- A sweep gives rows with the property of rows, as it passes from a row to the turned one. -/
theorem sweep_has (hlineage : Record.Lineage site.clock stored cached)
    (h : site.Has stored cached) :
    Ensures (sweep outside) site fun result later => later.Has stored cached ∧
      ∀ records, result = .ok records → ∀ record ∈ records, stored record := by
  refine ensures_get_bind ?_
  have hsweep := storeSweep_ensures outside site.clock site
  refine hsweep.bind fun result later hcall => ?_
  obtain ⟨faded, hfades, ⟨rfl, rfl⟩ | ⟨fault, rfl, -, rfl⟩⟩ := hcall
  · show Ensures (do
        (site.turned outside site.clock).forM (propagate outside site.clock)
        pruneSlots site.clock
        return Except.ok (site.turned outside site.clock))
      (faded.withStore (site.store.sweep site.clock)) _
    have hexpired : ∀ record ∈ site.turned outside site.clock, stored record := by
      intro record hmem
      obtain ⟨user, row, hrow, -, rfl⟩ := (Store.mem_expired_iff _ _ _).mp (mem_turned_iff.mp hmem)
      exact hlineage.restored row (h.rows user row hrow)
    have hswept : (faded.withStore (site.store.sweep site.clock)).Has stored cached :=
      (h.rests hfades.toRests).withStore (h.every.sweep site.clock fun _ => hlineage.restored)
    have hspreads : Ensures ((site.turned outside site.clock).forM (propagate outside site.clock))
        (faded.withStore (site.store.sweep site.clock)) fun _ spread =>
          spread.Has stored cached := by
      refine (ensures_forM (fun rest (state : Site) => state.Has stored cached ∧
        ∀ record ∈ rest, stored record) ?_ ⟨hswept, hexpired⟩).mono fun _ _ hspread => hspread.1
      intro record rest state hstate
      have hrecord : stored record := hstate.2 record List.mem_cons_self
      refine (propagate_has hstate.1 hlineage.weaker hrecord site.clock).mono
        fun _ later hlater => ?_
      exact ⟨hlater, fun other hmem => hstate.2 other (List.mem_cons_of_mem record hmem)⟩
    refine hspreads.bind fun _ spread hspread => ?_
    refine (pruneSlots_rests site.clock spread).bind fun _ last hrests => ?_
    exact ensures_pure ⟨hspread.rests hrests, of_eq_ok hexpired⟩
  · exact ensures_pure ⟨h.rests hfades.toRests, fun _ => nofun⟩

/-- So does the operation that sweeps, which gives nothing at all where tracking is disabled. -/
theorem expire_has (hlineage : Record.Lineage site.clock stored cached)
    (h : site.Has stored cached) :
    Ensures (expire outside) site fun result later => later.Has stored cached ∧
      ∀ records, result = .ok records → ∀ record ∈ records, stored record := by
  refine ensures_get_bind ?_
  split
  · exact ensures_pure ⟨h, of_eq_ok (List.forall_mem_nil stored)⟩
  · have hsweep : Ensures (sweep outside) site _ := sweep_has hlineage h
    refine hsweep.bind fun result later hrun => ?_
    obtain ⟨hlater, hrecords⟩ := hrun
    exact ensures_pure ⟨hlater, fun records hok => hrecords records (taskResult_eq_ok_iff.mp hok)⟩

/-- Handling an event that carries no other record than one that a row could be. -/
theorem receive_has (outside : Outside) (hweaker : ∀ record, stored record → cached record)
    (h : site.Has stored cached) {event : Event} (hevent : event.Carries stored) :
    Ensures (receive outside event) site fun _ later => later.Has stored cached := by
  cases event with
  | updateStatus record =>
    have hrecord : cached record := hweaker record (hevent record rfl)
    exact (cachePut_has h hrecord).bind fun _ later hlater => ensures_pure hlater
  | presenceChanged presence => exact ensures_modify ⟨h.rows, h.cached, h.published⟩
  | invalidateCache topic key =>
    refine ensures_get_bind ?_
    split
    · cases key with
      | some gone => exact (cacheRemove_has h gone).bind fun _ later hlater => ensures_pure hlater
      | none => exact (cachePurge_has h).bind fun _ later hlater => ensures_pure hlater
    · exact ensures_pure h

end Engine

/-- An answer that gives records with a property gives records with a weaker one. -/
theorem Answer.Gives.mono {holds weaker : Record → Prop}
    (hweaker : ∀ record, holds record → weaker record) {answer : Answer}
    (h : answer.Gives holds) : answer.Gives weaker := by
  cases answer with
  | record given => exact hweaker given h
  | records given => exact fun one hmem => hweaker one (h one hmem)
  | done => trivial

/-- What is given if it succeeds has a property. -/
theorem Answer.gives_of_map {α : Type} {holds : Record → Prop} {result : Except Failure α}
    {wrap : α → Answer} (h : ∀ value, result = .ok value → (wrap value).Gives holds) :
    ∀ answer, result.map wrap = .ok answer → answer.Gives holds := by
  intro answer hanswer
  cases result with
  | error failure => cases hanswer
  | ok value =>
    cases hanswer
    exact h value rfl

/-- Every operation keeps what is handed on, and gives only records that a cached one could be
and default records. -/
theorem Operation.run_has (outside : Outside) {stored cached : Record → Prop} {site : Site}
    {operation : Operation} (hlineage : Record.Lineage site.clock stored cached)
    (hnotes : operation.Notes cached) (h : site.Has stored cached) :
    Ensures (operation.run outside) site fun result later => later.Has stored cached ∧
      ∀ answer, result = .ok answer → answer.Gives (Record.OrDefault cached) := by
  cases operation with
  | change user transition =>
    exact (Engine.change_has hlineage h user transition).bind fun _ later hlater =>
      ensures_pure ⟨hlater.1, Answer.gives_of_map hlater.2⟩
  | read user =>
    exact (Engine.read_has hlineage.weaker h user).bind fun _ later hlater =>
      ensures_pure ⟨hlater.1, Answer.gives_of_map hlater.2⟩
  | readOrDefault user =>
    exact (Engine.readOrDefault_has hlineage.weaker h user).bind fun record later hlater =>
      ensures_pure ⟨hlater.1, of_eq_ok hlater.2⟩
  | readMany users =>
    exact (Engine.readMany_has hlineage.weaker h users).bind fun _ later hlater =>
      ensures_pure ⟨hlater.1, Answer.gives_of_map fun records hok record hmem =>
        .inl (hlater.2 records hok record hmem)⟩
  | setLastActivity user moment =>
    exact (Engine.setLastActivity_has hlineage h user hnotes).bind fun _ later hlater =>
      ensures_pure ⟨hlater, Answer.gives_of_map fun _ _ => trivial⟩
  | remove user =>
    exact (Engine.remove_has h user).bind fun _ later hlater =>
      ensures_pure ⟨hlater, Answer.gives_of_map fun _ _ => trivial⟩
  | clearCaches =>
    exact (Engine.clearCaches_has h).bind fun _ later hlater =>
      ensures_pure ⟨hlater, Answer.gives_of_map fun _ _ => trivial⟩
  | expire =>
    exact (Engine.expire_has hlineage h).bind fun _ later hlater =>
      ensures_pure ⟨hlater.1, Answer.gives_of_map fun records hok record hmem =>
        .inl (hlineage.weaker record (hlater.2 records hok record hmem))⟩

/-- A property that is handed on at all times is kept by the last activity that an operation
sets. -/
theorem Record.Hereditary.notes {holds : Record → Prop} (h : Record.Hereditary holds)
    (operation : Operation) : operation.Notes holds := by
  cases operation with
  | setLastActivity user moment => exact fun record hrecord => h.activity record moment hrecord
  | _ => trivial

/-- Every operation keeps a property that is handed on at all times, and gives only records
that have it. -/
theorem Operation.run_hereditary {holds : Record → Prop} (hholds : Record.Hereditary holds)
    (outside : Outside) {site : Site} (h : site.Has holds holds) (operation : Operation) :
    Ensures (operation.run outside) site fun result later => later.Has holds holds ∧
      ∀ answer, result = .ok answer → answer.Gives holds := by
  have hrun := operation.run_has outside (hholds.lineage site.clock) (hholds.notes operation) h
  refine hrun.mono fun result later hlater => ⟨hlater.1, fun answer hanswer => ?_⟩
  refine (hlater.2 answer hanswer).mono fun record hrecord => ?_
  rcases hrecord with hholds' | ⟨user, rfl⟩
  · exact hholds'
  · exact hholds.default user

end PresenceTracker
