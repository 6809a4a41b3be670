import PresenceTracker.Engine.Operations
import PresenceTracker.Proofs.Engine.Calls
import PresenceTracker.Proofs.Engine.Knowledge

/-!
# Handling the events of other nodes

What a node does with an event of another node is what the event is said to leave: it
changes nothing but the cache and what the node's clients are shown, and the cache shows
afterwards what the event leaves of what it showed before.
-/

namespace PresenceTracker

/-- A site has handled an event of another node. -/
structure Site.Handled (site : Site) (event : Event) (later : Site) : Prop where
  /-- The topic of the cache is the same. -/
  topic : later.topic = site.topic
  /-- The rows are the same. -/
  store : later.store = site.store
  /-- What the cache shows is what the event leaves. -/
  cached : ∀ user record, later.cached? user = some record →
    event.leaves site.topic user (site.cached? user) = some record
  /-- Nothing was published. -/
  published : later.published = site.published

namespace Engine

open Site

/-- A node with a cache of its own that works handles every event. -/
theorem receive_handled {outside : Outside} {site : Site} (hworks : outside.CacheWorks)
    (hneeds : site.topic.needsPeers = true) (event : Event) :
    Ensures (receive outside event) site fun _ later => site.Handled event later := by
  have hkept : ∀ {later : Site}, site.Fades outside later → ∀ user record,
      later.cached? user = some record → site.cached? user = some record :=
    fun hfades user record hcached => hfades.cached? hcached
  cases event with
  | updateStatus record =>
    have hwrite := cachePut_ensures outside record site
    refine hwrite.bind fun result later hcall => ?_
    obtain ⟨faded, hfades, ⟨-, rfl⟩ | ⟨failure, -, hfault, -⟩⟩ := hcall
    · refine ensures_pure ⟨hfades.topic, hfades.store, fun user other hcached => ?_,
        hfades.published⟩
      rw [cached?_hold] at hcached
      rw [Event.leaves]
      split at hcached
      · next hsame => rw [if_pos hsame, hcached]
      · next hother => rw [if_neg hother, hkept hfades user other hcached]
    · rw [hworks] at hfault
      cases hfault
  | presenceChanged presence =>
    exact ensures_modify ⟨rfl, rfl, fun user record hcached => hcached, rfl⟩
  | invalidateCache topic key =>
    refine ensures_get_bind ?_
    split
    · next hmine =>
      obtain ⟨-, hsame⟩ : topic.needsPeers = true ∧ topic = site.topic := by simpa using hmine
      cases key with
      | some gone =>
        have hevict := cacheRemove_ensures outside gone site
        refine hevict.bind fun result later hcall => ?_
        obtain ⟨faded, hfades, ⟨-, rfl⟩ | ⟨failure, -, hfault, -⟩⟩ := hcall
        · refine ensures_pure ⟨hfades.topic, hfades.store, fun user record hcached => ?_,
            hfades.published⟩
          rw [cached?_drop] at hcached
          split at hcached
          · cases hcached
          · next hother =>
            rw [Event.leaves, if_neg fun hkey => hother (by simpa using hkey.2)]
            exact hkept hfades user record hcached
        · rw [hworks] at hfault
          cases hfault
      | none =>
        have hpurge := cachePurge_ensures outside site
        refine hpurge.bind fun result later hcall => ?_
        obtain ⟨faded, hfades, ⟨-, rfl⟩ | ⟨failure, -, hfault, -⟩⟩ := hcall
        · refine ensures_pure ⟨hfades.topic, hfades.store, fun user record hcached => ?_,
            hfades.published⟩
          rw [cached?_empty rfl] at hcached
          cases hcached
        · rw [hworks] at hfault
          cases hfault
    · next hother =>
      refine ensures_pure ⟨rfl, rfl, fun user record hcached => ?_, rfl⟩
      rw [Event.leaves, if_neg fun hkey => hother (by simpa [hkey.1] using hneeds)]
      exact hcached

end Engine

end PresenceTracker
