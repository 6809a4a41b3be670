import PresenceTracker.Engine.Operations
import PresenceTracker.Proofs.Engine.Calls
import PresenceTracker.Proofs.Store.Rows

/-!
# Reads and purges

Reads change neither the store nor what the other nodes know. All that they do is to fill
gaps of the cache with rows of the store, whichever calls fail in between. A purge takes
everything out of the cache, and all it tells the other nodes is to do the same.
-/

namespace PresenceTracker

namespace Site

/-- Since a moment a site's store and topic are the same and nothing was published, and what
is new in the cache are rows of the store. -/
structure Refills (site later : Site) : Prop where
  /-- The topic of the cache is the same. -/
  topic : later.topic = site.topic
  /-- The rows are the same. -/
  store : later.store = site.store
  /-- What the cache shows it showed before, or it is the user's row. -/
  cached : ∀ user record, later.cached? user = some record →
    site.cached? user = some record ∨ site.store[user]? = some record
  /-- Nothing was published. -/
  published : later.published = site.published

namespace Refills

variable {site later last : Site}

theorem of_rests (h : site.Rests later) : site.Refills later :=
  ⟨h.topic, h.store, fun _ _ hcached => .inl (h.cached? hcached), h.published⟩

theorem trans (h : site.Refills later) (h' : later.Refills last) : site.Refills last where
  topic := h'.topic.trans h.topic
  store := h'.store.trans h.store
  cached user record hcached := by
    rcases h'.cached user record hcached with hbefore | hrow
    · exact h.cached user record hbefore
    · exact .inr (h.store ▸ hrow)
  published := h'.published.trans h.published

/-- Caching a user's row refills the cache. -/
theorem hold {record : Record} (hrow : site.store[record.userId]? = some record) :
    site.Refills (site.hold record) where
  topic := rfl
  store := rfl
  cached user other hcached := by
    rw [cached?_hold] at hcached
    split at hcached
    · next hsame =>
      cases hcached
      exact .inr (hsame ▸ hrow)
    · exact .inl hcached
  published := rfl

end Refills

/-- Since a moment a site's store and topic are the same, what is new in the cache are rows
of the store, and no events were published but purges. -/
structure Observes (site later : Site) : Prop where
  /-- The topic of the cache is the same. -/
  topic : later.topic = site.topic
  /-- The rows are the same. -/
  store : later.store = site.store
  /-- What the cache shows it showed before, or it is the user's row. -/
  cached : ∀ user record, later.cached? user = some record →
    site.cached? user = some record ∨ site.store[user]? = some record
  /-- Only purges were published. -/
  published : ∃ events, later.published = site.published ++ events ∧
    ∀ event ∈ events, event = .invalidateCache site.topic none

theorem Refills.observes {site later : Site} (h : site.Refills later) : site.Observes later :=
  ⟨h.topic, h.store, h.cached, [], by rw [h.published, List.append_nil], fun _ => nofun⟩

end Site

/-- Whether an operation only reads or purges. -/
def Operation.onlyObserves : Operation → Bool
  | read _ | readOrDefault _ | readMany _ | clearCaches => true
  | _ => false

namespace Engine

open Site

variable {outside : Outside} {site : Site}

/-- Filling the cache with a user's row refills it. -/
theorem backfill_refills {record : Record} (hrow : site.store[record.userId]? = some record) :
    Ensures (backfill outside record) site fun _ later => site.Refills later := by
  have hlook := cacheGet_ensures outside record.userId site
  refine hlook.bind fun found looked hcall => ?_
  obtain ⟨hfades, -⟩ := hcall
  split
  · exact (release_rests record.userId looked).mono fun _ last hrests =>
      (Refills.of_rests hfades.toRests).trans (.of_rests hrests)
  · have hwrite := cachePut_ensures outside record looked
    refine hwrite.bind fun result later hcall => ?_
    obtain ⟨faded, hfades', hlater⟩ := hcall
    have hstore : faded.store = site.store := hfades'.store.trans hfades.store
    have hfaded : site.Refills faded :=
      (Refills.of_rests hfades.toRests).trans (.of_rests hfades'.toRests)
    refine (release_rests record.userId later).mono fun _ last hrests => ?_
    rcases hlater with ⟨-, rfl⟩ | ⟨failure, -, -, rfl⟩
    · exact (hfaded.trans (.hold (hstore ▸ hrow))).trans (.of_rests hrests)
    · exact hfaded.trans (.of_rests hrests)

/-- A read of one user refills the cache. -/
theorem read_refills (hkeyed : site.store.Keyed) (user : String) :
    Ensures (read outside user) site fun _ later => site.Refills later := by
  have hsite : site.Refills site := .of_rests (.refl site)
  refine ensures_get_bind ?_
  split
  · exact ensures_pure hsite
  · split
    · exact ensures_pure hsite
    · have hlook := cacheGet_ensures outside user site
      refine hlook.bind fun found looked hcall => ?_
      obtain ⟨hfades, -⟩ := hcall
      have hlooked : site.Refills looked := .of_rests hfades.toRests
      split
      · exact ensures_pure hlooked
      · have hread := storeGet_ensures outside user looked
        refine hread.bind fun result later hcall => ?_
        obtain ⟨hfades', hrow⟩ := hcall
        have hlater := hlooked.trans (.of_rests hfades'.toRests)
        split
        · next record =>
          have hrecord := hrow record rfl
          rw [hfades.store] at hrecord
          have huser : record.userId = user := hkeyed user record hrecord
          refine (backfill_refills ?_).bind fun _ last hlast => ensures_pure (hlater.trans hlast)
          rw [hlater.store, huser]
          exact hrecord
        · split
          · exact ensures_pure hlater
          · exact ensures_pure hlater
        · exact ensures_pure hlater

theorem readOrDefault_refills (hkeyed : site.store.Keyed) (user : String) :
    Ensures (readOrDefault outside user) site fun _ later => site.Refills later := by
  refine (read_refills hkeyed user).bind fun result later hlater => ?_
  split
  · exact ensures_pure hlater
  · exact ensures_pure hlater

/-- A look-up of one of several users changes nothing. -/
theorem gatherOne_refills (gathered : Gathered) (user : String) :
    Ensures (gatherOne outside gathered user) site fun _ later => site.Refills later := by
  unfold gatherOne
  split
  · exact ensures_pure (.of_rests (.refl site))
  · have hlook := cacheGet_ensures outside user site
    refine hlook.bind fun found looked hcall => ?_
    obtain ⟨hfades, -⟩ := hcall
    split <;> exact ensures_pure (.of_rests hfades.toRests)

/-- A read of several users refills the cache. -/
theorem readMany_refills (hkeyed : site.store.Keyed) (users : List String) :
    Ensures (readMany outside users) site fun _ later => site.Refills later := by
  have hsite : site.Refills site := .of_rests (.refl site)
  refine ensures_get_bind ?_
  split
  · exact ensures_pure hsite
  · have hgather : Ensures (users.foldlM (gatherOne outside) {}) site fun _ later =>
        site.Refills later :=
      ensures_foldlM (fun _ _ later => site.Refills later)
        (fun gathered user _ later hlater =>
          (gatherOne_refills gathered user).mono fun _ last hlast => hlater.trans hlast) hsite
    refine hgather.bind fun gathered looked hlooked => ?_
    split
    · exact ensures_pure hlooked
    · have hread := storeGetMany_ensures outside gathered.missing looked
      refine hread.bind fun result later hcall => ?_
      obtain ⟨hfades, hrows⟩ := hcall
      have hlater := hlooked.trans (.of_rests hfades.toRests)
      split
      · next records =>
        have hrecords : ∀ record ∈ records, site.store[record.userId]? = some record := by
          intro record hmem
          rw [hrows records rfl, hlooked.store] at hmem
          exact Store.mem_findMany hkeyed hmem
        have hfill : Ensures (records.foldlM (gatherStored outside) gathered.found) later
            fun _ last => site.Refills last := by
          refine (ensures_foldlM (fun rest _ last => site.Refills last ∧
            ∀ record ∈ rest, site.store[record.userId]? = some record) ?_
              ⟨hlater, hrecords⟩).mono fun _ last hlast => hlast.1
          intro found record rest last hround
          obtain ⟨hlast, hrest⟩ := hround
          have hrow : last.store[record.userId]? = some record :=
            hlast.store ▸ hrest record List.mem_cons_self
          exact (backfill_refills hrow).bind fun _ filled hfilled =>
            ensures_pure ⟨hlast.trans hfilled, fun other hmem =>
              hrest other (List.mem_cons_of_mem record hmem)⟩
        exact hfill.bind fun _ last hlast => ensures_pure hlast
      · exact ensures_pure hlater
      · exact ensures_pure hlater

/-- A purge takes everything out of the cache and tells the other nodes to do so. -/
theorem clearCaches_observes :
    Ensures (clearCaches outside) site fun _ later => site.Observes later := by
  refine ensures_get_bind ?_
  split
  · exact ensures_pure (Refills.observes (.of_rests (.refl site)))
  · refine (cachePurge_rests outside site).bind fun result purged hrests => ?_
    have hpurged : site.Observes purged := (Refills.of_rests hrests).observes
    split
    · exact ensures_pure hpurged
    · have htell : Ensures (publishToPeers fun topic => .invalidateCache topic none) purged
          fun _ later => site.Observes later := by
        refine ensures_get_bind ?_
        split
        · refine ensures_modify ⟨hpurged.topic, hpurged.store, hpurged.cached,
            [.invalidateCache purged.topic none], ?_, ?_⟩
          · exact congrArg (· ++ [Event.invalidateCache purged.topic none]) hrests.published
          · rw [hrests.topic]
            exact fun event hmem => List.mem_singleton.mp hmem
        · exact ensures_pure hpurged
      exact htell.bind fun _ last hlast => ensures_pure hlast

end Engine

/-- What only reads or purges does no more than that. -/
theorem Operation.run_observes (outside : Outside) {site : Site} {operation : Operation}
    (honly : operation.onlyObserves = true) (hkeyed : site.store.Keyed) :
    Ensures (operation.run outside) site fun _ later => site.Observes later := by
  cases operation with
  | read user =>
    exact (Engine.read_refills hkeyed user).bind fun _ later hlater =>
      ensures_pure hlater.observes
  | readOrDefault user =>
    exact (Engine.readOrDefault_refills hkeyed user).bind fun _ later hlater =>
      ensures_pure hlater.observes
  | readMany users =>
    exact (Engine.readMany_refills hkeyed users).bind fun _ later hlater =>
      ensures_pure hlater.observes
  | clearCaches =>
    exact Engine.clearCaches_observes.bind fun _ later hlater => ensures_pure hlater
  | change user transition => cases honly
  | setLastActivity user moment => cases honly
  | remove user => cases honly
  | expire => cases honly

end PresenceTracker
