import PresenceTracker.Engine.Operations
import PresenceTracker.Proofs.Engine.Calls
import PresenceTracker.Proofs.Store.Rows

/-!
# From single calls to operations

A relation between the site before and the site after that every single call respects, and
that passes from one call to the next, is respected by every operation. What no operation
ever does, such as to show clients another event than it tells the other nodes, is proved
in this way: the single calls are looked at once, and not again for each operation.
-/

namespace PresenceTracker

/-- Whether a call only reads rows. -/
def StoreCall.reads : StoreCall → Bool
  | get _ | getMany _ => true
  | _ => false

namespace Site

/-- A relation between the sites before and after that calls respect which write no rows. -/
structure Frame (outside : Outside) (relates : Site → Site → Prop) : Prop where
  /-- Doing nothing respects it. -/
  refl : ∀ site, relates site site
  /-- Two steps after one another respect it if each does. -/
  trans : ∀ {site later last}, relates site later → relates later last → relates site last
  /-- Calls to the cache that change nothing respect it. -/
  fades : ∀ {site later}, site.Fades outside later → later.asked = site.asked → relates site later
  /-- Reads of rows respect it. -/
  asks : ∀ {site later} (call : StoreCall), call.reads = true → site.Fades outside later →
    later.asked = site.asked ++ [call] → relates site later
  /-- A write to the cache respects it. -/
  hold : ∀ site record, relates site (site.hold record)
  /-- A removal from the cache respects it. -/
  drop : ∀ site user, relates site (site.drop user)
  /-- A purge of the cache respects it. -/
  clear : ∀ site, relates site site.clear
  /-- Telling the peers about a cache respects it. -/
  tell : ∀ site event, site.topic.needsPeers = true → event.kind ≠ .presenceChanged →
    relates site { site with published := site.published ++ [event] }
  /-- Showing an event to the clients of all nodes respects it. -/
  broadcast : ∀ site presence, relates site { site with
    shown := site.shown ++ [presence]
    published := site.published ++ [.presenceChanged presence] }
  /-- The end of an operation on a user respects it. -/
  release : ∀ site user, Ensures (Engine.release user) site fun _ later => relates site later

/-- A relation between the sites before and after that all calls respect. -/
structure FullFrame (outside : Outside) (relates : Site → Site → Prop) : Prop
    extends Frame outside relates where
  /-- Calls that may change the rows respect it. -/
  writes : ∀ {site faded} (call : StoreCall) (store : Store), site.Fades outside faded →
    faded.asked = site.asked ++ [call] → (site.store.Keyed → store.Keyed) →
      relates site (faded.withStore store)
  /-- A change of the bookkeeping on writes respects it. -/
  slots : ∀ site slots, relates site { site with slots }

end Site

namespace Engine

open Site

variable {outside : Outside} {relates : Site → Site → Prop}

section Calls

/-- A write to the cache asks nothing of the store. -/
theorem cachePut_asked (outside : Outside) (record : Record) (site : Site) :
    Ensures (cachePut outside record) site fun _ later => later.asked = site.asked := by
  simp only [Ensures, cachePut, StateT.run]
  split <;> rfl

/-- A removal from the cache asks nothing of the store. -/
theorem cacheRemove_asked (outside : Outside) (user : String) (site : Site) :
    Ensures (cacheRemove outside user) site fun _ later => later.asked = site.asked := by
  simp only [Ensures, cacheRemove, StateT.run]
  split <;> rfl

/-- A purge of the cache asks nothing of the store. -/
theorem cachePurge_asked (outside : Outside) (site : Site) :
    Ensures (cachePurge outside) site fun _ later => later.asked = site.asked := by
  simp only [Ensures, cachePurge, StateT.run]
  split <;> rfl

/-- A call to the store is logged, whether it fails or not. -/
theorem storeCall_asked {α : Type} (outside : Outside) (call : StoreCall)
    (run : Store → Except Failure α × Store) (site : Site) :
    Ensures (storeCall outside call run) site fun _ later =>
      later.asked = site.asked ++ [call] := by
  simp only [Ensures, storeCall, StateT.run]
  split <;> rfl

/-- So is a sweep of the store. -/
theorem storeSweep_asked (outside : Outside) (now : Moment) (site : Site) :
    Ensures (storeSweep outside now) site fun _ later =>
      later.asked = site.asked ++ [.sweep now] :=
  storeCall_asked outside (.sweep now)
    (fun store => (.ok (site.turned outside now), store.sweep now)) site

variable (h : Frame outside relates)
include h

/-- A look-up changes nothing but what is counted, and what vanishes anyway. -/
theorem cacheGet_frame (user : String) (site : Site) :
    Ensures (cacheGet outside user) site fun _ later => relates site later := by
  obtain ⟨hfades, -⟩ := cacheGet_ensures outside user site
  exact h.fades hfades rfl

/-- A write to the cache is a write, or fails and changes nothing. -/
theorem cachePut_frame (record : Record) (site : Site) :
    Ensures (cachePut outside record) site fun _ later => relates site later := by
  have hcalled := (cachePut_ensures outside record site).and (cachePut_asked outside record site)
  refine hcalled.mono fun _ later hcall => ?_
  obtain ⟨⟨faded, hfades, ⟨-, rfl⟩ | ⟨-, -, -, rfl⟩⟩, hasked⟩ := hcall
  · exact h.trans (h.fades hfades hasked) (h.hold faded record)
  · exact h.fades hfades hasked

/-- A removal from the cache is a removal, or fails and changes nothing. -/
theorem cacheRemove_frame (user : String) (site : Site) :
    Ensures (cacheRemove outside user) site fun _ later => relates site later := by
  have hcalled := (cacheRemove_ensures outside user site).and (cacheRemove_asked outside user site)
  refine hcalled.mono fun _ later hcall => ?_
  obtain ⟨⟨faded, hfades, ⟨-, rfl⟩ | ⟨-, -, -, rfl⟩⟩, hasked⟩ := hcall
  · exact h.trans (h.fades hfades hasked) (h.drop faded user)
  · exact h.fades hfades hasked

/-- A purge is a purge, or fails and changes nothing. -/
theorem cachePurge_frame (site : Site) :
    Ensures (cachePurge outside) site fun _ later => relates site later := by
  have hcalled := (cachePurge_ensures outside site).and (cachePurge_asked outside site)
  refine hcalled.mono fun _ later hcall => ?_
  obtain ⟨⟨faded, hfades, ⟨-, rfl⟩ | ⟨-, -, -, rfl⟩⟩, hasked⟩ := hcall
  · exact h.trans (h.fades hfades hasked) (h.clear faded)
  · exact h.fades hfades hasked

/-- A call that only reads rows respects the relation, whatever it makes of them. -/
theorem storeRead_frame {α : Type} {call : StoreCall} (hreads : call.reads = true)
    (read : Store → Except Failure α) (site : Site) :
    Ensures (storeCall outside call fun store => (read store, store)) site fun _ later =>
      relates site later := by
  have hcalled := (storeRead_ensures outside call read site).and
    (storeCall_asked outside call _ site)
  exact hcalled.mono fun _ _ hcall => h.asks call hreads hcall.1.1 hcall.2

/-- A read of one row respects the relation. -/
theorem storeGet_frame (user : String) (site : Site) :
    Ensures (storeGet outside user) site fun _ later => relates site later :=
  storeRead_frame h rfl (fun store => store.find user) site

/-- A read of several rows respects the relation. -/
theorem storeGetMany_frame (users : List String) (site : Site) :
    Ensures (storeGetMany outside users) site fun _ later => relates site later :=
  storeRead_frame h rfl (fun store => .ok (store.findMany users)) site

/-- Only a node with peers tells them, and never of what clients are shown. -/
theorem publishToPeers_frame {event : Topic → Event}
    (hevent : ∀ topic, (event topic).kind ≠ .presenceChanged) (site : Site) :
    Ensures (publishToPeers event) site fun _ later => relates site later := by
  refine ensures_get_bind ?_
  split
  · next hneeds => exact ensures_modify (h.tell site (event site.topic) hneeds (hevent site.topic))
  · exact ensures_pure (h.refl site)

/-- What is shown to the clients of a node is published to those of the others. -/
theorem broadcast_frame (record : Record) (site : Site) :
    Ensures (broadcast record) site fun _ later => relates site later :=
  h.broadcast site record.presence

end Calls

section Reads

variable (h : Frame outside relates)
include h

/-- A load looks a user up, and reads the row if that gave nothing. -/
theorem load_frame (user : String) (site : Site) :
    Ensures (load outside user) site fun _ later => relates site later := by
  refine (cacheGet_frame h user site).bind fun found looked hlooked => ?_
  split
  · exact ensures_pure hlooked
  · refine (storeGet_frame h user looked).bind fun result later hlater => ?_
    have hloaded := h.trans hlooked hlater
    split
    · exact ensures_pure hloaded
    · split <;> exact ensures_pure hloaded
    · exact ensures_pure hloaded

/-- The new record is cached or the old one removed, and the peers are told. -/
theorem cacheAndSync_frame (record : Record) (site : Site) :
    Ensures (cacheAndSync outside record) site fun _ later => relates site later := by
  have htell : ∀ later, relates site later →
      Ensures (publishToPeers fun _ => .updateStatus record) later fun _ last =>
        relates site last := fun later hlater =>
    (publishToPeers_frame h (fun _ => by nofun) later).mono fun _ _ hlast => h.trans hlater hlast
  refine (cachePut_frame h record site).bind fun result put hput => ?_
  split
  · exact htell put hput
  · exact (cacheRemove_frame h record.userId put).bind fun _ later hlater =>
      htell later (h.trans hput hlater)

/-- A row is taken over by a look-up and perhaps a write to the cache. -/
theorem backfill_frame (record : Record) (site : Site) :
    Ensures (backfill outside record) site fun _ later => relates site later := by
  refine (cacheGet_frame h record.userId site).bind fun found looked hlooked => ?_
  split
  · exact (h.release looked record.userId).mono fun _ _ hlater => h.trans hlooked hlater
  · refine (cachePut_frame h record looked).bind fun _ put hput => ?_
    exact (h.release put record.userId).mono fun _ _ hlater =>
      h.trans (h.trans hlooked hput) hlater

/-- A read is a look-up, and perhaps the read of a row and its taking over. -/
theorem read_frame (user : String) (site : Site) :
    Ensures (read outside user) site fun _ later => relates site later := by
  refine ensures_get_bind ?_
  split
  · exact ensures_pure (h.refl site)
  · split
    · exact ensures_pure (h.refl site)
    · refine (cacheGet_frame h user site).bind fun found looked hlooked => ?_
      split
      · exact ensures_pure hlooked
      · refine (storeGet_frame h user looked).bind fun result later hlater => ?_
        have hread := h.trans hlooked hlater
        split
        · exact (backfill_frame h _ later).bind fun _ _ hfilled =>
            ensures_pure (h.trans hread hfilled)
        · split <;> exact ensures_pure hread
        · exact ensures_pure hread

/-- To fall back on the default record takes no further call. -/
theorem readOrDefault_frame (user : String) (site : Site) :
    Ensures (readOrDefault outside user) site fun _ later => relates site later := by
  refine (read_frame h user site).bind fun result later hlater => ?_
  split <;> exact ensures_pure hlater

/-- A user is gathered by one look-up, or by none if there was one before. -/
theorem gatherOne_frame (gathered : Gathered) (user : String) (site : Site) :
    Ensures (gatherOne outside gathered user) site fun _ later => relates site later := by
  unfold gatherOne
  split
  · exact ensures_pure (h.refl site)
  · refine (cacheGet_frame h user site).bind fun found later hlater => ?_
    split <;> exact ensures_pure hlater

/-- A read of several users looks them up in turn, reads the rows of those that are missing, and
takes the rows over in turn. -/
theorem readMany_frame (users : List String) (site : Site) :
    Ensures (readMany outside users) site fun _ later => relates site later := by
  refine ensures_get_bind ?_
  split
  · exact ensures_pure (h.refl site)
  · have hgather : Ensures (users.foldlM (gatherOne outside) {}) site fun _ later =>
        relates site later :=
      ensures_foldlM (fun _ _ later => relates site later)
        (fun gathered user _ later hlater => (gatherOne_frame h gathered user later).mono
          fun _ _ hlast => h.trans hlater hlast) (h.refl site)
    refine hgather.bind fun gathered looked hlooked => ?_
    split
    · exact ensures_pure hlooked
    · refine (storeGetMany_frame h gathered.missing looked).bind fun result later hlater => ?_
      have hread := h.trans hlooked hlater
      split
      · next records =>
        have hfill : Ensures (records.foldlM (gatherStored outside) gathered.found) later
            fun _ last => relates site last :=
          ensures_foldlM (fun _ _ last => relates site last)
            (fun found record _ last hlast => (backfill_frame h record last).bind
              fun _ _ hfilled => ensures_pure (h.trans hlast hfilled)) hread
        exact hfill.bind fun _ _ hlast => ensures_pure hlast
      · exact ensures_pure hread
      · exact ensures_pure hread

/-- The last activity is set by a load and a write to the cache. -/
theorem cacheActivity_frame (user : String) (moment : Moment) (site : Site) :
    Ensures (cacheActivity outside user moment) site fun _ later => relates site later := by
  refine (load_frame h user site).bind fun result loaded hloaded => ?_
  split
  · exact ensures_pure hloaded
  · split
    · exact (cachePut_frame h _ loaded).bind fun _ _ hput => ensures_pure (h.trans hloaded hput)
    · exact ensures_pure hloaded

/-- The caches of all nodes are emptied by a purge of which the peers are told. -/
theorem clearCaches_frame (site : Site) :
    Ensures (clearCaches outside) site fun _ later => relates site later := by
  refine ensures_get_bind ?_
  split
  · exact ensures_pure (h.refl site)
  · refine (cachePurge_frame h site).bind fun result purged hpurged => ?_
    split
    · exact ensures_pure hpurged
    · exact (publishToPeers_frame h (fun _ => by nofun) purged).bind fun _ _ htold =>
        ensures_pure (h.trans hpurged htold)

end Reads

section Writes

variable (h : FullFrame outside relates)
include h

/-- A call that may change rows respects the relation if it keeps rows under their users. -/
theorem storeWrite_frame {α : Type} (call : StoreCall) (run : Store → Except Failure α × Store)
    (hkeyed : ∀ store : Store, store.Keyed → (run store).2.Keyed) (site : Site) :
    Ensures (storeCall outside call run) site fun _ later => relates site later := by
  have hcalled := (storeCall_ensures outside call run site).and
    (storeCall_asked outside call run site)
  refine hcalled.mono fun _ later hcall => ?_
  obtain ⟨⟨faded, hfades, ⟨-, rfl⟩ | ⟨-, -, -, rfl⟩⟩, hasked⟩ := hcall
  · exact h.writes call _ hfades hasked (hkeyed site.store)
  · exact h.writes call later.store hfades hasked (hfades.store ▸ id)

/-- A whole row is written under its user. -/
theorem storeSave_frame (record : Record) (site : Site) :
    Ensures (storeSave outside record) site fun _ later => relates site later := by
  refine storeWrite_frame h (.save record) _ (fun store hkeyed => ?_) site
  cases hsave : store.save record with
  | ok saved => exact hkeyed.save hsave
  | error failure => exact hkeyed

/-- That a row was written is noted in the node's own bookkeeping. -/
theorem notePersisted_frame (user : String) (site : Site) :
    Ensures (notePersisted user) site fun _ later => relates site later :=
  ensures_modify (h.slots site _)

/-- A record is written by at most one call to the store. -/
theorem persist_frame (user : String) (current : Current) (next : Record) (site : Site) :
    Ensures (persist outside user current next) site fun _ later => relates site later := by
  have hnote : ∀ (later : Site), relates site later →
      Ensures (do notePersisted user; return Except.ok ()) later
        fun (_ : Except StoreFault Unit) last => relates site last := fun later hlater =>
    (notePersisted_frame h user later).bind fun _ _ hnoted => ensures_pure (h.trans hlater hnoted)
  unfold persist
  split
  · split
    · exact ensures_pure (h.refl site)
    · refine (storeSave_frame h next site).bind fun result later hlater => ?_
      split
      · exact ensures_pure hlater
      · exact hnote later hlater
  · refine ensures_get_bind ?_
    split
    · exact ensures_pure (h.refl site)
    · refine (storeWrite_frame h (.touch next.userId next.lastActivity) _
        (fun _ hkeyed => hkeyed.touch _ _) site).bind fun result later hlater => ?_
      split
      · exact hnote later hlater
      · exact ensures_pure hlater
      · exact ensures_pure hlater

/-- A commit is a write to the store, then one to the cache, and last an event if the change can be
seen. -/
theorem commit_frame (user : String) (current : Current) (next : Record) (site : Site) :
    Ensures (commit outside user current next) site fun _ later => relates site later := by
  unfold commit
  split
  · exact ensures_pure (h.refl site)
  · refine (persist_frame h user current next site).bind fun result written hwritten => ?_
    split
    · exact ensures_pure hwritten
    · refine (cacheAndSync_frame h.toFrame next written).bind fun _ synced hsynced => ?_
      have hlater := h.trans hwritten hsynced
      split
      · exact (broadcast_frame h.toFrame next synced).bind fun _ _ hshown =>
          ensures_pure (h.trans hlater hshown)
      · exact ensures_pure hlater

/-- A change is a load and a commit, and the end of the operation. -/
theorem change_frame (user : String) (transition : Transition) (site : Site) :
    Ensures (change outside user transition) site fun _ later => relates site later := by
  have hperform : Ensures (perform outside user transition) site fun _ later =>
      relates site later := by
    refine (load_frame h.toFrame user site).bind fun result loaded hloaded => ?_
    split
    · exact ensures_pure hloaded
    · refine ensures_get_bind ?_
      split
      · exact ensures_pure hloaded
      · exact ensures_pure hloaded
      · exact (commit_frame h user _ _ loaded).mono fun _ _ hlater => h.trans hloaded hlater
  refine ensures_get_bind ?_
  split
  · exact ensures_pure (h.refl site)
  · split
    · exact ensures_pure (h.refl site)
    · refine hperform.bind fun result later hlater => ?_
      exact (h.release later user).bind fun _ _ hlast => ensures_pure (h.trans hlater hlast)

/-- Setting the last activity may lead to a change. -/
theorem setLastActivity_frame (user : String) (moment : Moment) (site : Site) :
    Ensures (setLastActivity outside user moment) site fun _ later => relates site later := by
  refine ensures_get_bind ?_
  split
  · exact ensures_pure (h.refl site)
  · split
    · exact ensures_pure (h.refl site)
    · refine (cacheActivity_frame h.toFrame user moment site).bind fun known noted hnoted => ?_
      refine (h.release noted user).bind fun _ later hlater => ?_
      have hdone := h.trans hnoted hlater
      split
      · exact ensures_pure hdone
      · exact ensures_pure hdone
      · exact ensures_pure hdone
      · exact (change_frame h user (.away false) later).bind fun _ _ hlast =>
          ensures_pure (h.trans hdone hlast)

/-- A removal deletes the row, removes the cached record, tells the peers and forgets the user. -/
theorem remove_frame (user : String) (site : Site) :
    Ensures (remove outside user) site fun _ later => relates site later := by
  have hdelete : Ensures (delete outside user) site fun _ later => relates site later := by
    refine (storeWrite_frame h (.delete user) _ (fun _ hkeyed => hkeyed.delete user) site).bind
      fun result deleted hdeleted => ?_
    split
    · exact ensures_pure hdeleted
    · refine (cacheRemove_frame h.toFrame user deleted).bind fun _ dropped hdropped => ?_
      refine (publishToPeers_frame h.toFrame (fun _ => by nofun) dropped).bind
        fun _ told htold => ?_
      have hforget : Ensures (forget user) told fun _ later => relates told later :=
        ensures_modify (h.slots told _)
      exact hforget.bind fun _ _ hlast =>
        ensures_pure (h.trans (h.trans (h.trans hdeleted hdropped) htold) hlast)
  refine ensures_get_bind ?_
  split
  · exact ensures_pure (h.refl site)
  · split
    · exact ensures_pure (h.refl site)
    · refine hdelete.bind fun result later hlater => ?_
      exact (h.release later user).bind fun _ _ hlast => ensures_pure (h.trans hlater hlast)

/-- A turned row is spread by the calls of a commit, but for that to the store. -/
theorem propagate_frame (now : Moment) (record : Record) (site : Site) :
    Ensures (propagate outside now record) site fun _ later => relates site later := by
  have hspread : ∀ looked, relates site looked →
      Ensures (do cacheAndSync outside record; broadcast record; release record.userId) looked
        fun _ later => relates site later := by
    intro looked hlooked
    refine (cacheAndSync_frame h.toFrame record looked).bind fun _ synced hsynced => ?_
    refine (broadcast_frame h.toFrame record synced).bind fun _ shown hshown => ?_
    exact (h.release shown record.userId).mono fun _ _ hlater =>
      h.trans (h.trans (h.trans hlooked hsynced) hshown) hlater
  have hnote : Ensures (noteSwept record.userId now) site fun _ later => relates site later :=
    ensures_modify (h.slots site _)
  refine hnote.bind fun _ noted hnoted => ?_
  refine (cacheGet_frame h.toFrame record.userId noted).bind fun found looked hlooked => ?_
  have hdone := h.trans hnoted hlooked
  split
  · split
    · exact hspread looked hdone
    · exact (h.release looked record.userId).mono fun _ _ hlater => h.trans hdone hlater
  · exact hspread looked hdone

/-- A sweep turns rows by one call and then spreads them in turn. -/
theorem expire_frame (site : Site) :
    Ensures (expire outside) site fun _ later => relates site later := by
  have hsweep : Ensures (sweep outside) site fun _ later => relates site later := by
    have hturns : Ensures (storeSweep outside site.clock) site fun _ later =>
        relates site later :=
      storeWrite_frame h (.sweep site.clock)
        (fun store => (.ok (site.turned outside site.clock), store.sweep site.clock))
        (fun _ hkeyed => hkeyed.sweep _) site
    refine ensures_get_bind ?_
    refine hturns.bind fun result swept hswept => ?_
    split
    · exact ensures_pure hswept
    · next restored =>
      have hspread : Ensures (restored.forM (propagate outside site.clock)) swept fun _ later =>
          relates site later :=
        ensures_forM (fun _ later => relates site later)
          (fun record _ later hlater => (propagate_frame h site.clock record later).mono
            fun _ _ hlast => h.trans hlater hlast) hswept
      refine hspread.bind fun _ spread hspread => ?_
      have hprune : Ensures (pruneSlots site.clock) spread fun _ later => relates spread later :=
        ensures_modify (h.slots spread _)
      exact hprune.bind fun _ _ hlast => ensures_pure (h.trans hspread hlast)
  refine ensures_get_bind ?_
  split
  · exact ensures_pure (h.refl site)
  · exact hsweep.bind fun _ _ hlater => ensures_pure hlater

end Writes

end Engine

/-- Every operation respects a relation that all calls respect. -/
theorem Operation.run_frame {outside : Outside} {relates : Site → Site → Prop}
    (h : Site.FullFrame outside relates) (operation : Operation) (site : Site) :
    Ensures (operation.run outside) site fun _ later => relates site later := by
  cases operation with
  | change user transition =>
    exact (Engine.change_frame h user transition site).bind fun _ _ hlater => ensures_pure hlater
  | read user =>
    exact (Engine.read_frame h.toFrame user site).bind fun _ _ hlater => ensures_pure hlater
  | readOrDefault user =>
    exact (Engine.readOrDefault_frame h.toFrame user site).bind fun _ _ hlater =>
      ensures_pure hlater
  | readMany users =>
    exact (Engine.readMany_frame h.toFrame users site).bind fun _ _ hlater => ensures_pure hlater
  | setLastActivity user moment =>
    exact (Engine.setLastActivity_frame h user moment site).bind fun _ _ hlater =>
      ensures_pure hlater
  | remove user =>
    exact (Engine.remove_frame h user site).bind fun _ _ hlater => ensures_pure hlater
  | clearCaches =>
    exact (Engine.clearCaches_frame h.toFrame site).bind fun _ _ hlater => ensures_pure hlater
  | expire => exact (Engine.expire_frame h site).bind fun _ _ hlater => ensures_pure hlater

end PresenceTracker
