import PresenceTracker.Engine.Operations
import PresenceTracker.Proofs.Engine.Calls

/-!
# Operations that fail

A transition, a removal and a sweep make one call to the store that changes rows, and whatever
can fail does so in it or before it. So where one of them fails nothing has happened that a user
or another node could see: calls were made and look-ups counted, and at the end a slot may have
been forgotten whose window was closed. Noting an activity is not of this kind, since the note
is in the cache before the transition that follows it can fail.
-/

namespace PresenceTracker

/-- Whether an operation changes nothing where it fails: a transition, a removal or a sweep. -/
def Operation.isAllOrNothing : Operation → Bool
  | change _ _ | remove _ | expire => true
  | _ => false

namespace Site

variable {outside : Outside} {site later last : Site}

/-- A site at which nothing is done fades in no way. -/
theorem Fades.refl (site : Site) : site.Fades outside site where
  toRests := .refl site
  stays _ _ := rfl
  clock := rfl
  settings := rfl
  slots := rfl
  shown := rfl

/-- Two spells in which a site only faded are one. -/
theorem Fades.trans (h : site.Fades outside later) (h' : later.Fades outside last) :
    site.Fades outside last where
  topic := h'.topic.trans h.topic
  store := h'.store.trans h.store
  cache user frame hframe := h.cache user frame (h'.cache user frame hframe)
  published := h'.published.trans h.published
  stays user hspares := (h'.stays user hspares).trans (h.stays user hspares)
  clock := h'.clock.trans h.clock
  settings := h'.settings.trans h.settings
  slots := h'.slots.trans h.slots
  shown := h'.shown.trans h.shown

/-- Since a moment nothing has happened to a site but that calls were made and look-ups counted,
that entries of its cache vanished of themselves, and that slots were forgotten whose windows
are closed. -/
structure Untouched (outside : Outside) (site later : Site) : Prop where
  /-- The rows are the same. -/
  store : later.store = site.store
  /-- The cache holds the same of every user whose entry does not vanish of itself. -/
  cache : ∀ user : String, (∀ count, outside.vanishes count user = false) →
    later.cache[user]? = site.cache[user]?
  /-- The cache holds nothing new. -/
  fresh : ∀ (user : String) (frame : Bytes), later.cache[user]? = some frame →
    site.cache[user]? = some frame
  /-- The same is known of the last writes, unless a window is closed. -/
  slots : ∀ user : String, later.slots[user]? = site.slots[user]? ∨
    later.slots[user]? = none ∧ site.skipsWrite user = false
  /-- Nothing was published. -/
  published : later.published = site.published
  /-- Nothing was shown. -/
  shown : later.shown = site.shown
  /-- The clock stands still. -/
  clock : later.clock = site.clock
  /-- The settings are the same. -/
  settings : later.settings = site.settings
  /-- The topic of the cache is the same. -/
  topic : later.topic = site.topic

/-- A site that only faded is untouched. -/
theorem Fades.untouched (h : site.Fades outside later) : site.Untouched outside later where
  store := h.store
  cache := h.stays
  fresh := h.cache
  slots user := .inl (by rw [h.slots])
  published := h.published
  shown := h.shown
  clock := h.clock
  settings := h.settings
  topic := h.topic

/-- The end of an operation on a user forgets a slot at most whose window is closed. -/
theorem Fades.release (h : site.Fades outside later) (user : String) :
    Ensures (Engine.release user) later fun _ last => site.Untouched outside last := by
  refine ensures_modify ?_
  split
  · exact h.untouched
  · next hclosed =>
    refine { h.untouched with slots := fun other => ?_ }
    rw [Table.get?_erase]
    split
    · next hsame =>
      refine .inr ⟨rfl, ?_⟩
      rw [← hsame]
      simpa [skipsWrite, h.slots, h.clock, h.settings] using hclosed
    · exact .inl (by rw [h.slots])

end Site

namespace Engine

open Site

variable {outside : Outside}

/-- Where an action fails, it leaves a site of which the claim is true. -/
def FailsLeaving {α ε : Type} (claim : Site → Prop) (action : StateM Site (Except ε α))
    (site : Site) : Prop :=
  Ensures action site fun result later => ∀ failure, result = .error failure → claim later

/-- Loading a record changes nothing, whether it fails or not. -/
theorem load_fades (outside : Outside) (user : String) (site : Site) :
    Ensures (load outside user) site fun _ later => site.Fades outside later := by
  have hlook := cacheGet_ensures outside user site
  refine hlook.bind fun found looked hcall => ?_
  obtain ⟨hlooked, -⟩ := hcall
  split
  · exact ensures_pure hlooked
  · have hread := storeGet_ensures outside user looked
    refine hread.bind fun result later hcall => ?_
    have hlater := hlooked.trans hcall.1
    split
    · exact ensures_pure hlater
    · split <;> exact ensures_pure hlater
    · exact ensures_pure hlater

/-- Writing a record to the store fails in the check or in its only call. -/
theorem persist_fades (user : String) (current : Current) (next : Record) (site : Site) :
    FailsLeaving (site.Fades outside) (persist outside user current next) site := by
  unfold FailsLeaving persist
  split
  · split
    · exact ensures_pure fun _ _ => .refl site
    · refine (storeSave_ensures outside next site).bind fun result later hcall => ?_
      obtain ⟨faded, hfades, ⟨-, -, rfl, -⟩ | ⟨⟨fault, rfl⟩, rfl⟩⟩ := hcall
      · exact (ensures_run (notePersisted user) later).bind fun _ _ _ => ensures_pure fun _ => nofun
      · exact ensures_pure fun _ _ => hfades
  · refine ensures_get_bind ?_
    split
    · exact ensures_pure fun _ => nofun
    · have htouch := storeTouch_ensures outside next.userId next.lastActivity site
      refine htouch.bind fun result later hcall => ?_
      obtain ⟨faded, hfades, ⟨rfl, -⟩ | ⟨fault, rfl, -, rfl⟩⟩ := hcall
      · exact (ensures_run (notePersisted user) later).bind fun _ _ _ => ensures_pure fun _ => nofun
      · cases fault with
        | refused failure => exact ensures_pure fun _ => nofun
        | killed => exact ensures_pure fun _ _ => hfades

/-- Once a record is written to the store, a commit does not fail any more. -/
theorem commit_fades (user : String) (current : Current) (next : Record) (site : Site) :
    FailsLeaving (site.Fades outside) (commit outside user current next) site := by
  unfold FailsLeaving commit
  split
  · exact ensures_pure fun _ => nofun
  · have hwrite : FailsLeaving (site.Fades outside) (persist outside user current next) site :=
      persist_fades user current next site
    refine hwrite.bind fun result persisted hpersisted => ?_
    split
    · next fault => exact ensures_pure fun _ _ => hpersisted fault rfl
    · refine (ensures_run (cacheAndSync outside next) persisted).bind fun _ synced _ => ?_
      split
      · exact (ensures_run (broadcast next) synced).bind fun _ _ _ => ensures_pure fun _ => nofun
      · exact ensures_pure fun _ => nofun

/-- A transition that fails has only looked. -/
theorem perform_fades (user : String) (transition : Transition) (site : Site) :
    FailsLeaving (site.Fades outside) (perform outside user transition) site := by
  refine (load_fades outside user site).bind fun result loaded hloaded => ?_
  split
  · exact ensures_pure fun _ _ => hloaded
  · next current =>
    refine ensures_get_bind ?_
    split
    · exact ensures_pure fun _ _ => hloaded
    · exact ensures_pure fun _ => nofun
    · next next _ =>
      exact (commit_fades user current next loaded).mono fun _ _ hcommit failure hfails =>
        hloaded.trans (hcommit failure hfails)

/-- A deletion fails in its call to the store, which comes first. -/
theorem delete_fades (user : String) (site : Site) :
    FailsLeaving (site.Fades outside) (delete outside user) site := by
  refine (storeDelete_ensures outside user site).bind fun result later hcall => ?_
  obtain ⟨faded, hfades, ⟨rfl, -⟩ | ⟨fault, rfl, -, rfl⟩⟩ := hcall
  · exact (ensures_run _ later).bind fun _ dropped _ => (ensures_run _ dropped).bind
      fun _ told _ => (ensures_run _ told).bind fun _ _ _ => ensures_pure fun _ => nofun
  · exact ensures_pure fun _ _ => hfades

/-- A sweep fails in its call to the store, which comes first. -/
theorem sweep_fades (site : Site) : FailsLeaving (site.Fades outside) (sweep outside) site := by
  refine ensures_get_bind ?_
  refine (storeSweep_ensures outside site.clock site).bind fun result later hcall => ?_
  obtain ⟨faded, hfades, ⟨rfl, -⟩ | ⟨fault, rfl, -, rfl⟩⟩ := hcall
  · exact (ensures_run _ later).bind fun _ spread _ => (ensures_run _ spread).bind
      fun _ _ _ => ensures_pure fun _ => nofun
  · exact ensures_pure fun _ _ => hfades

/-- A task that reports a failure has failed itself. -/
theorem fault_of_taskResult {α : Type} {result : Except StoreFault α} {failure : Failure}
    (h : taskResult result = .error failure) : ∃ fault, result = .error fault := by
  cases result with
  | error fault => exact ⟨fault, rfl⟩
  | ok value => cases h

/-- An operation on a user that leaves the site alone where it fails touches nothing, also when
it is over. -/
theorem untouched_of_fades {α : Type} {action : StateM Site (Except StoreFault α)} {site : Site}
    (h : FailsLeaving (site.Fades outside) action site) (user : String) :
    FailsLeaving (site.Untouched outside)
      (do let result ← action; release user; return taskResult result) site := by
  refine Ensures.bind h fun result later hidle => ?_
  cases result with
  | error fault =>
    exact ((hidle fault rfl).release user).bind fun _ _ hlast => ensures_pure fun _ _ => hlast
  | ok value => exact (ensures_run _ later).bind fun _ _ _ => ensures_pure fun _ => nofun

/-- A change that fails leaves the site untouched, but for entries that vanished. -/
theorem change_untouched (user : String) (transition : Transition) (site : Site) :
    FailsLeaving (site.Untouched outside) (change outside user transition) site := by
  refine ensures_get_bind ?_
  split
  · exact ensures_pure fun _ => nofun
  · split
    · exact ensures_pure fun _ _ => (Fades.refl site).untouched
    · exact untouched_of_fades (perform_fades user transition site) user

/-- A removal that fails leaves the site untouched. -/
theorem remove_untouched (user : String) (site : Site) :
    FailsLeaving (site.Untouched outside) (remove outside user) site := by
  refine ensures_get_bind ?_
  split
  · exact ensures_pure fun _ => nofun
  · split
    · exact ensures_pure fun _ _ => (Fades.refl site).untouched
    · exact untouched_of_fades (delete_fades user site) user

/-- A sweep that fails leaves the site untouched. -/
theorem expire_untouched (site : Site) :
    FailsLeaving (site.Untouched outside) (expire outside) site := by
  refine ensures_get_bind ?_
  split
  · exact ensures_pure fun _ => nofun
  · have hsweep : FailsLeaving (site.Fades outside) (sweep outside) site := sweep_fades site
    refine Ensures.bind hsweep fun result later hidle => ?_
    refine ensures_pure fun failure hfails => ?_
    obtain ⟨fault, rfl⟩ := fault_of_taskResult hfails
    exact (hidle fault rfl).untouched

/-- An action whose value becomes an answer fails where it did. -/
theorem FailsLeaving.map {α : Type} {claim : Site → Prop}
    {action : StateM Site (Except Failure α)} {site : Site} (h : FailsLeaving claim action site)
    (wrap : α → Answer) : FailsLeaving claim (do return (← action).map wrap) site := by
  refine Ensures.bind h fun result later hclaim => ensures_pure fun failure hfails => ?_
  cases result with
  | error other => exact hclaim other rfl
  | ok value => cases hfails

end Engine

namespace Site

/-- A transition, a removal or a sweep that fails, whichever calls fail, leaves rows, cache,
bookkeeping, messages and events as they were. -/
theorem failure_changes_nothing (outside : Outside) (site : Site) (operation : Operation)
    (hkind : operation.isAllOrNothing = true) (failure : Failure)
    (hfails : ((operation.run outside).run site).1 = .error failure) :
    site.Untouched outside ((operation.run outside).run site).2 := by
  have huntouched : Engine.FailsLeaving (site.Untouched outside) (operation.run outside) site := by
    cases operation with
    | change user transition => exact (Engine.change_untouched user transition site).map .record
    | remove user => exact (Engine.remove_untouched user site).map fun _ => .done
    | expire => exact (Engine.expire_untouched site).map .records
    | read | readOrDefault | readMany | setLastActivity | clearCaches => cases hkind
  exact huntouched failure hfails

/-- A node that wrote one user long ago and another one just now. -/
def longAgo : Site where
  clock := 100000
  store := (∅ : Store).insert "ada" ⟨"ada", .online, false, 1000, some "town", none, none⟩
  slots := ((∅ : Table Moment).insert "ada" 1000).insert "bob" 99000

/-- Look-ups in the cache fail, and so do full writes. -/
def unwritable : Outside where
  storeFault
    | _, .save _ => some (.refused (.io "disk full"))
    | _, _ => none
  cacheFault
    | _, .get _ => some (.io "no cache")
    | _, _ => none
  vanishes _ _ := false

/-- The store refuses a choice of the user: nothing changes, and the slot is forgotten whose
window is closed. -/
theorem failure_changes_nothing_when_unwritable :
    (((Operation.change "ada" .dnd).run unwritable).run longAgo).1 =
        .error (.io "disk full") ∧
      longAgo.slots["ada"]? = some 1000 ∧
      (((Operation.change "ada" .dnd).run unwritable).run longAgo).2.slots["ada"]? = none ∧
      longAgo.Untouched unwritable
        (((Operation.change "ada" .dnd).run unwritable).run longAgo).2 := by
  have hfails : (((Operation.change "ada" .dnd).run unwritable).run longAgo).1 =
      .error (.io "disk full") := by rfl
  refine ⟨hfails, by decide +kernel, by decide +kernel, ?_⟩
  exact failure_changes_nothing unwritable longAgo (.change "ada" .dnd) rfl _ hfails

end Site

end PresenceTracker
