import PresenceTracker.Proofs.Engine.Knowledge
import PresenceTracker.Proofs.Engine.Reads

/-!
# Coherence of cache, store and messages

While an operation works on some users, what the cache shows of them and what the other
nodes were told of them may be behind the store. Coherence since the start of an operation
says for which users either may be the case, and that for all others the cache shows only
what the store backs, and that the messages published since the start turn knowledge that
the store backed then into knowledge that it backs now. Each step of an operation opens
users by changing their rows, or closes them by caching and publishing.
-/

namespace PresenceTracker

namespace Site

/-- Every row stands under its user, and the cache shows only what the store backs. -/
structure InStep (site : Site) : Prop where
  /-- Every row stands under its user. -/
  keyed : site.store.Keyed
  /-- The cache shows only what the store backs. -/
  backed : ∀ user, site.store.Backs user (site.cached? user)

/-- What holds of a site since the start of an operation, while the cache may be behind for
the users `uncached` and the other nodes for the users `untold`. -/
structure Coherent (start : Site) (uncached untold : List String) (site : Site) : Prop where
  /-- Every row stands under its user. -/
  keyed : site.store.Keyed
  /-- A user with a row had one at the start or has an identifier that passes the check. -/
  users : ∀ (user : String) (row : Record), site.store[user]? = some row →
    (∃ before : Record, start.store[user]? = some before) ∨ Record.checkUser user = .ok ()
  /-- The topic of the cache is the same. -/
  topic : site.topic = start.topic
  /-- The cache shows only what the store backs. -/
  cached : ∀ user, user ∉ uncached → site.store.Backs user (site.cached? user)
  /-- The messages published since keep knowledge backed. -/
  told : start.topic.needsPeers = true → ∃ events, site.published = start.published ++ events ∧
    ∀ user, user ∉ untold → ∀ known, start.store.Backs user known →
      site.store.Backs user (Event.leavesAll start.topic user known events)

theorem InStep.coherent {site : Site} (h : site.InStep) : site.Coherent [] [] site where
  keyed := h.keyed
  users _ row hrow := .inl ⟨row, hrow⟩
  topic := rfl
  cached user _ := h.backed user
  told _ := ⟨[], (List.append_nil _).symm, fun _ _ _ hknown => hknown⟩

namespace Coherent

variable {start site later : Site} {uncached untold : List String}

theorem inStep (h : start.Coherent [] untold site) : site.InStep :=
  ⟨h.keyed, fun user => h.cached user List.not_mem_nil⟩

/-- More users may be behind than are. -/
theorem weaken (h : start.Coherent uncached untold site) {uncached' untold' : List String}
    (hcached : ∀ user ∈ uncached, user ∈ uncached') (htold : ∀ user ∈ untold, user ∈ untold') :
    start.Coherent uncached' untold' site where
  keyed := h.keyed
  users := h.users
  topic := h.topic
  cached user huser := h.cached user fun hmem => huser (hcached user hmem)
  told hneeds := by
    obtain ⟨events, hpublished, hkept⟩ := h.told hneeds
    exact ⟨events, hpublished, fun user huser => hkept user fun hmem => huser (htold user hmem)⟩

/-- A site stays coherent while its cache is refilled. -/
theorem refills (h : start.Coherent uncached untold site) (hrefills : site.Refills later) :
    start.Coherent uncached untold later where
  keyed := hrefills.store ▸ h.keyed
  users := hrefills.store ▸ h.users
  topic := hrefills.topic.trans h.topic
  cached user huser record hcached := by
    rw [hrefills.store]
    rcases hrefills.cached user record hcached with hbefore | hrow
    · exact h.cached user huser record hbefore
    · exact ⟨record, hrow, .refl record⟩
  told hneeds := by
    rw [hrefills.published, hrefills.store]
    exact h.told hneeds

/-- A site at rest stays coherent. -/
theorem rests (h : start.Coherent uncached untold site) (hrests : site.Rests later) :
    start.Coherent uncached untold later := h.refills (.of_rests hrests)

/-- Caching a record that agrees with the user's row closes the user's gap in the cache. -/
theorem hold {record row : Record} {others : List String}
    (h : start.Coherent uncached untold site) (hrow : site.store[record.userId]? = some row)
    (hagrees : record.AgreesWith row)
    (hothers : ∀ user ∈ uncached, user ≠ record.userId → user ∈ others) :
    start.Coherent others untold (site.hold record) where
  keyed := h.keyed
  users := h.users
  topic := h.topic
  cached user huser := by
    rw [cached?_hold]
    split
    · next hsame => exact hsame ▸ Store.backs_some hrow hagrees
    · next hother =>
      exact h.cached user fun hmem => huser (hothers user hmem fun heq => hother heq.symm)
  told := h.told

/-- Taking a user out of the cache closes the user's gap in the cache. -/
theorem drop {gone : String} {others : List String} (h : start.Coherent uncached untold site)
    (hothers : ∀ user ∈ uncached, user ≠ gone → user ∈ others) :
    start.Coherent others untold (site.drop gone) where
  keyed := h.keyed
  users := h.users
  topic := h.topic
  cached user huser := by
    rw [cached?_drop]
    split
    · exact Store.backs_none _ _
    · next hother =>
      exact h.cached user fun hmem => huser (hothers user hmem fun heq => hother heq.symm)
  told := h.told

/-- New rows open the users whose rows do not follow the old ones. -/
theorem withStore {store : Store} {opened : List String} (h : start.Coherent [] [] site)
    (hkeyed : store.Keyed)
    (husers : ∀ (user : String) (row : Record), store[user]? = some row →
      (∃ before : Record, site.store[user]? = some before) ∨ Record.checkUser user = .ok ())
    (hrows : ∀ user, user ∉ opened → ∀ row, site.store[user]? = some row →
      ∃ row', store[user]? = some row' ∧ row.AgreesWith row') :
    start.Coherent opened opened (site.withStore store) where
  keyed := hkeyed
  users user row hrow := by
    rcases husers user row hrow with ⟨before, hbefore⟩ | hchecked
    · exact h.users user before hbefore
    · exact .inr hchecked
  topic := h.topic
  cached user huser := (h.cached user List.not_mem_nil).of_rows (hrows user huser)
  told hneeds := by
    obtain ⟨events, hpublished, hkept⟩ := h.told hneeds
    refine ⟨events, hpublished, fun user huser known hknown => ?_⟩
    exact (hkept user List.not_mem_nil known hknown).of_rows (hrows user huser)

/-- The users with a row before a change of the store are known. -/
theorem every_known (site : Site) : site.store.Every fun user _ =>
    (∃ before : Record, site.store[user]? = some before) ∨ Record.checkUser user = .ok () :=
  fun _ row hrow => .inl ⟨row, hrow⟩

/-- A full write opens the user of the record. -/
theorem save {saved : Store} {record : Record} (h : start.Coherent [] [] site)
    (hsave : site.store.save record = .ok saved) :
    start.Coherent [record.userId] [record.userId] (site.withStore saved) := by
  have hchecked := Record.checkUser_of_validate (Store.validate_of_save hsave)
  have husers := (every_known site).save hsave (.inr hchecked)
  refine h.withStore (h.keyed.save hsave) husers fun user huser row hrow => ?_
  have hne : record.userId ≠ user := fun heq => huser (by simp [heq])
  rw [Store.get?_save hsave, if_neg hne]
  exact ⟨row, hrow, .refl row⟩

/-- A write of the activity opens nobody. -/
theorem touch (h : start.Coherent [] [] site) (user : String) (moment : Moment) :
    start.Coherent [] [] (site.withStore (site.store.touch user moment)) := by
  have husers := (every_known site).touch user moment fun _ hknown => hknown
  refine h.withStore (h.keyed.touch user moment) husers fun other _ row hrow => ?_
  rw [Store.get?_touch, hrow]
  split
  · exact ⟨_, rfl, (Record.AgreesWith.withActivity row moment).symm⟩
  · exact ⟨row, rfl, .refl row⟩

/-- A deletion opens the user. -/
theorem delete (h : start.Coherent [] [] site) (user : String) :
    start.Coherent [user] [user] (site.withStore (site.store.delete user)) := by
  have husers := (every_known site).delete user
  refine h.withStore (h.keyed.delete user) husers fun other hother row hrow => ?_
  have hne : user ≠ other := fun heq => hother (by simp [heq])
  rw [Store.get?_delete, if_neg hne]
  exact ⟨row, hrow, .refl row⟩

/-- A sweep opens the users whose rows it turns, in whichever order they are listed. -/
theorem sweep (h : start.Coherent [] [] site) {now : Moment} {turned : List Record}
    (hturned : turned.Perm (site.store.expired now)) :
    start.Coherent (turned.map Record.userId) (turned.map Record.userId)
      (site.withStore (site.store.sweep now)) := by
  have husers := (every_known site).sweep now fun _ _ hknown => hknown
  refine h.withStore (h.keyed.sweep now) husers fun user huser row hrow => ?_
  rw [(hturned.map Record.userId).mem_iff] at huser
  exact ⟨row, (Store.get?_sweep_of_not_mem h.keyed huser).trans hrow, .refl row⟩

/-- Publishing an event closes the gaps of the users of whom it leaves only knowledge that
the store backs. -/
theorem publish {event : Event} {others : List String} (h : start.Coherent uncached untold site)
    (hevent : ∀ user, user ∉ others → ∀ known,
      (user ∉ untold → site.store.Backs user known) →
        site.store.Backs user (event.leaves start.topic user known)) :
    start.Coherent uncached others { site with published := site.published ++ [event] } where
  keyed := h.keyed
  users := h.users
  topic := h.topic
  cached := h.cached
  told hneeds := by
    obtain ⟨events, hpublished, hkept⟩ := h.told hneeds
    refine ⟨events ++ [event], by simp [hpublished], fun user huser known hknown => ?_⟩
    rw [Event.leavesAll_concat]
    exact hevent user huser _ fun hmem => hkept user hmem known hknown

end Coherent

end Site

namespace Engine

variable {start site : Site} {uncached untold others : List String}

/-- Showing an event to clients adds it to what was shown. -/
theorem showClients_ensures (presence : PresenceEvent) (site : Site) :
    Ensures (showClients presence) site fun _ later =>
      later = { site with shown := site.shown ++ [presence] } := rfl

/-- Publishing to the peers closes the gaps of the users of whom the event leaves only
knowledge that the store backs. Nodes with a shared cache have nothing to tell. -/
theorem publishToPeers_coherent {event : Topic → Event}
    (h : start.Coherent uncached untold site)
    (hevent : ∀ user, user ∉ others → ∀ known,
      (user ∉ untold → site.store.Backs user known) →
        site.store.Backs user ((event start.topic).leaves start.topic user known)) :
    Ensures (publishToPeers event) site fun _ later =>
      start.Coherent uncached others later ∧ later.store = site.store ∧
        later.cache = site.cache := by
  refine ensures_get_bind ?_
  rw [h.topic]
  split
  · exact ensures_modify ⟨h.publish hevent, rfl, rfl⟩
  · next hneeds =>
    exact ensures_pure ⟨⟨h.keyed, h.users, h.topic, h.cached, fun h => absurd h hneeds⟩, rfl, rfl⟩

end Engine

end PresenceTracker
