import PresenceTracker.Proofs.Engine.Coherence

/-!
# Operations keep a node coherent

As long as removals from the cache work, every operation leaves a node coherent that it
found coherent, whichever other calls fail: the cache shows only what the store backs, and
the messages published turn backed knowledge of other nodes into backed knowledge.
-/

namespace PresenceTracker.Engine

open Site

variable {outside : Outside} {start site : Site}

/-- A record that is loaded is the user's, and the store backs it if there is one. -/
theorem load_coherent (h : start.Coherent [] [] site) (user : String) :
    Ensures (load outside user) site fun result later => start.Coherent [] [] later ∧
      ∀ current, result = .ok current → current.record.userId = user ∧
        (current.persisted = true → later.store.Backs user (some current.record)) := by
  have hlook := cacheGet_ensures outside user site
  refine hlook.bind fun found looked hcall => ?_
  obtain ⟨hfades, hfound⟩ := hcall
  have hlooked := h.rests hfades.toRests
  split
  · next record =>
    have hbacks := hlooked.cached user List.not_mem_nil
    rw [hfound record rfl] at hbacks
    obtain ⟨row, hrow, hagrees⟩ := hbacks record rfl
    have huser : record.userId = user := hagrees.userId_eq.trans (hlooked.keyed user row hrow)
    exact ensures_pure ⟨hlooked, of_eq_ok ⟨huser, fun _ => hbacks⟩⟩
  · have hread := storeGet_ensures outside user looked
    refine hread.bind fun result later hcall => ?_
    obtain ⟨hfades', hrow⟩ := hcall
    have hlater := hlooked.rests hfades'.toRests
    split
    · next record =>
      have hrecord : looked.store[user]? = some record := hrow record rfl
      have huser : record.userId = user := hlooked.keyed user record hrecord
      have hbacks : later.store.Backs user (some record) := by
        rw [hfades'.store]
        exact Store.backs_some hrecord (.refl record)
      exact ensures_pure ⟨hlater, of_eq_ok ⟨huser, fun _ => hbacks⟩⟩
    · split
      · exact ensures_pure ⟨hlater, of_eq_ok ⟨rfl, nofun⟩⟩
      · exact ensures_pure ⟨hlater, fun _ => nofun⟩
    · exact ensures_pure ⟨hlater, fun _ => nofun⟩

/-- A record that the store backs is cached and told to the other nodes, which closes the
gaps of its user. For other users the cache shows nothing new. -/
theorem cacheAndSync_coherent (hremoves : outside.RemovesWork) {record : Record}
    {others : List String}
    (h : start.Coherent (record.userId :: others) (record.userId :: others) site)
    (hrecord : site.store.Backs record.userId (some record)) :
    Ensures (cacheAndSync outside record) site fun _ later => start.Coherent others others later ∧
      later.store = site.store ∧ ∀ user, user ≠ record.userId → ∀ known,
        later.cached? user = some known → site.cached? user = some known := by
  obtain ⟨row, hrow, hagrees⟩ := hrecord record rfl
  have hothers : ∀ user ∈ record.userId :: others, user ≠ record.userId → user ∈ others :=
    fun user hmem hne => (List.mem_cons.mp hmem).resolve_left hne
  have htell : ∀ later, start.Coherent others (record.userId :: others) later →
      later.store = site.store →
      (∀ user, user ≠ record.userId → ∀ known,
        later.cached? user = some known → site.cached? user = some known) →
      Ensures (publishToPeers fun _ => .updateStatus record) later fun _ last =>
        start.Coherent others others last ∧ last.store = site.store ∧
          ∀ user, user ≠ record.userId → ∀ known,
            last.cached? user = some known → site.cached? user = some known := by
    intro later hlater hstore hframe
    refine (publishToPeers_coherent hlater fun user huser known hknown => ?_).mono
      fun _ last hlast => ⟨hlast.1, hlast.2.1.trans hstore, fun user hne known hshown => ?_⟩
    · rw [Event.leaves]
      split
      · next hsame => exact hsame ▸ Store.backs_some (hstore ▸ hrow) hagrees
      · next hother =>
        exact hknown fun hmem => huser (hothers user hmem fun heq => hother heq.symm)
    · rw [cached?, hlast.2.2] at hshown
      exact hframe user hne known hshown
  have hwrite := cachePut_ensures outside record site
  refine hwrite.bind fun result later hcall => ?_
  obtain ⟨faded, hfades, ⟨rfl, rfl⟩ | ⟨failure, rfl, -, rfl⟩⟩ := hcall
  · refine htell _ ((h.rests hfades.toRests).hold (hfades.store ▸ hrow) hagrees hothers)
      hfades.store fun user hne known hknown => ?_
    rw [cached?_hold, if_neg fun heq => hne heq.symm] at hknown
    exact hfades.cached? hknown
  · have hevict := cacheRemove_ensures outside record.userId later
    refine hevict.bind fun result last hcall => ?_
    obtain ⟨gone, hgone, ⟨rfl, rfl⟩ | ⟨failure, rfl, hfault, -⟩⟩ := hcall
    · refine htell _ (((h.rests hfades.toRests).rests hgone.toRests).drop hothers)
        (hgone.store.trans hfades.store) fun user hne known hknown => ?_
      rw [cached?_drop, if_neg fun heq => hne heq.symm] at hknown
      exact hfades.cached? (hgone.cached? hknown)
    · rw [hremoves] at hfault
      cases hfault

/-- Showing a record to clients leaves a node coherent. -/
theorem broadcast_coherent {uncached untold : List String}
    (h : start.Coherent uncached untold site) (record : Record) :
    Ensures (broadcast record) site fun _ later => start.Coherent uncached untold later ∧
      later.store = site.store ∧ later.cache = site.cache := by
  have hshow := showClients_ensures record.presence site
  refine hshow.bind fun _ later hcall => ?_
  subst hcall
  have hrests : site.Rests { site with shown := site.shown ++ [record.presence] } :=
    ⟨rfl, rfl, fun _ _ h => h, rfl⟩
  have hpasses : ∀ user, user ∉ untold → ∀ known,
      (user ∉ untold → site.store.Backs user known) → site.store.Backs user
        ((Event.presenceChanged record.presence).leaves start.topic user known) :=
    fun user huser known hknown => hknown huser
  exact ensures_modify ⟨(h.rests hrests).publish hpasses, rfl, rfl⟩

/-- Writing the next record of a user to the store opens the user, and the store backs the
record from then on. If it fails nothing is open. -/
theorem persist_coherent (h : start.Coherent [] [] site) {user : String} {current : Current}
    {next : Record} (hnext : next.userId = user) (huser : current.record.userId = user)
    (hcurrent : current.persisted = true → site.store.Backs user (some current.record)) :
    Ensures (persist outside user current next) site fun result later =>
      (result = .ok () →
        start.Coherent [user] [user] later ∧ later.store.Backs user (some next)) ∧
      ∀ fault, result = .error fault → start.Coherent [] [] later := by
  have hnote : ∀ later, start.Coherent [user] [user] later → later.store.Backs user (some next) →
      Ensures (do notePersisted user; return .ok ()) later
        fun (result : Except StoreFault Unit) last => (result = .ok () →
          start.Coherent [user] [user] last ∧ last.store.Backs user (some next)) ∧
        ∀ fault, result = .error fault → start.Coherent [] [] last := by
    intro later hlater hbacks
    refine (notePersisted_rests user later).bind fun _ last hrests => ?_
    refine ensures_pure ⟨fun _ => ⟨hlater.rests hrests, ?_⟩, fun _ => nofun⟩
    exact hrests.store ▸ hbacks
  unfold persist
  split
  · split
    · exact ensures_pure ⟨nofun, fun _ _ => h⟩
    · have hwrite := storeSave_ensures outside next site
      refine hwrite.bind fun result later hcall => ?_
      obtain ⟨faded, hfades, ⟨saved, hsave, rfl, rfl⟩ | ⟨⟨fault, rfl⟩, rfl⟩⟩ := hcall
      · have hopen : start.Coherent [user] [user] (faded.withStore saved) := by
          rw [← hnext]
          exact (h.rests hfades.toRests).save (hfades.store ▸ hsave)
        have hrow : saved[user]? = some next := by rw [Store.get?_save hsave, if_pos hnext]
        exact hnote _ hopen (Store.backs_some hrow (.refl next))
      · exact ensures_pure ⟨nofun, fun _ _ => h.rests hfades.toRests⟩
  · next hfull =>
    obtain ⟨hpersisted, hagrees⟩ := Current.agreesWith_of_not_needsFullSave
      (hnext.trans huser.symm) (by simpa using hfull)
    obtain ⟨row, hrow, hback⟩ := hcurrent hpersisted current.record rfl
    -- A write of the activity that is put off or fails leaves a row that agrees all the same.
    have hkept : ∀ later, site.Fades outside later → start.Coherent [user] [user] later ∧
        later.store.Backs user (some next) := fun later hfades =>
      ⟨(h.rests hfades.toRests).weaken (fun _ => nofun) fun _ => nofun,
        Store.backs_some (hfades.store ▸ hrow) (hagrees.trans hback)⟩
    refine ensures_get_bind ?_
    split
    · exact ensures_pure ⟨fun _ => ⟨h.weaken (fun _ => nofun) fun _ => nofun,
        Store.backs_some hrow (hagrees.trans hback)⟩, fun _ => nofun⟩
    · have htouch := storeTouch_ensures outside next.userId next.lastActivity site
      refine htouch.bind fun result later hcall => ?_
      obtain ⟨faded, hfades, ⟨rfl, rfl⟩ | ⟨fault, rfl, -, rfl⟩⟩ := hcall
      · have hopen : start.Coherent [user] [user]
            (faded.withStore (site.store.touch next.userId next.lastActivity)) := by
          rw [← hfades.store]
          exact ((h.rests hfades.toRests).touch _ _).weaken (fun _ => nofun) fun _ => nofun
        have htouched : (site.store.touch next.userId next.lastActivity)[user]? =
            some { row with lastActivity := next.lastActivity } := by
          rw [Store.get?_touch, if_pos hnext, hrow, Option.map_some]
        have hnow : next.AgreesWith { row with lastActivity := next.lastActivity } :=
          (hagrees.trans hback).trans (Record.AgreesWith.withActivity row _).symm
        exact hnote _ hopen (Store.backs_some htouched hnow)
      · cases fault with
        | refused failure => exact ensures_pure ⟨fun _ => hkept later hfades, fun _ => nofun⟩
        | killed => exact ensures_pure ⟨nofun, fun _ _ => h.rests hfades.toRests⟩

/-- Committing the next record of a user leaves a node coherent, whether it succeeds or
fails. -/
theorem commit_coherent (hremoves : outside.RemovesWork) (h : start.Coherent [] [] site)
    {user : String} {current : Current} {next : Record} (hnext : next.userId = user)
    (huser : current.record.userId = user)
    (hcurrent : current.persisted = true → site.store.Backs user (some current.record)) :
    Ensures (commit outside user current next) site fun _ later => start.Coherent [] [] later := by
  unfold commit
  split
  · exact ensures_pure h
  · have hpersist : Ensures (persist outside user current next) site _ :=
      persist_coherent h hnext huser hcurrent
    refine hpersist.bind fun result later hrun => ?_
    obtain ⟨hok, herror⟩ := hrun
    split
    · next fault => exact ensures_pure (herror fault rfl)
    · obtain ⟨hopen, hbacks⟩ := hok rfl
      rw [← hnext] at hopen hbacks
      refine (cacheAndSync_coherent hremoves hopen hbacks).bind fun _ synced hsynced => ?_
      split
      · exact (broadcast_coherent hsynced.1 next).bind fun _ last hlast => ensures_pure hlast.1
      · exact ensures_pure hsynced.1

theorem perform_coherent (hremoves : outside.RemovesWork) (h : start.Coherent [] [] site)
    (user : String) (transition : Transition) :
    Ensures (perform outside user transition) site fun _ later =>
      start.Coherent [] [] later := by
  have hload : Ensures (load outside user) site _ := load_coherent h user
  refine hload.bind fun result loaded hrun => ?_
  obtain ⟨hloaded, hcurrent⟩ := hrun
  split
  · exact ensures_pure hloaded
  · next current =>
    obtain ⟨huser, hbacks⟩ := hcurrent current rfl
    refine ensures_get_bind ?_
    split
    · exact ensures_pure hloaded
    · exact ensures_pure hloaded
    · next next hdecision =>
      exact commit_coherent hremoves hloaded
        ((Transition.userId_of_apply hdecision).trans huser) huser hbacks

theorem change_coherent (hremoves : outside.RemovesWork) (h : start.Coherent [] [] site)
    (user : String) (transition : Transition) :
    Ensures (change outside user transition) site fun _ later =>
      start.Coherent [] [] later := by
  refine ensures_get_bind ?_
  split
  · exact ensures_pure h
  · split
    · exact ensures_pure h
    · refine (perform_coherent hremoves h user transition).bind fun result later hlater => ?_
      refine (release_rests user later).bind fun _ last hrests => ?_
      exact ensures_pure (hlater.rests hrests)

/-- Setting the last activity in the cache leaves a node coherent. -/
theorem cacheActivity_coherent (h : start.Coherent [] [] site) (user : String) (moment : Moment) :
    Ensures (cacheActivity outside user moment) site fun _ later =>
      start.Coherent [] [] later := by
  have hload : Ensures (load outside user) site _ := load_coherent h user
  refine hload.bind fun result loaded hrun => ?_
  obtain ⟨hloaded, hcurrent⟩ := hrun
  split
  · exact ensures_pure hloaded
  · next current =>
    obtain ⟨huser, hbacks⟩ := hcurrent current rfl
    split
    · next hpersisted =>
      obtain ⟨row, hrow, hagrees⟩ := hbacks hpersisted current.record rfl
      have hwrite :=
        cachePut_ensures outside { current.record with lastActivity := moment } loaded
      refine hwrite.bind fun result later hcall => ?_
      obtain ⟨faded, hfades, ⟨-, rfl⟩ | ⟨failure, -, -, rfl⟩⟩ := hcall
      · refine ensures_pure ((hloaded.rests hfades.toRests).hold ?_
          ((Record.AgreesWith.withActivity current.record moment).trans hagrees) fun _ => nofun)
        rw [hfades.store]
        exact huser ▸ hrow
      · exact ensures_pure (hloaded.rests hfades.toRests)
    · exact ensures_pure hloaded

theorem setLastActivity_coherent (hremoves : outside.RemovesWork)
    (h : start.Coherent [] [] site) (user : String) (moment : Moment) :
    Ensures (setLastActivity outside user moment) site fun _ later =>
      start.Coherent [] [] later := by
  refine ensures_get_bind ?_
  split
  · exact ensures_pure h
  · split
    · exact ensures_pure h
    · refine (cacheActivity_coherent h user moment).bind fun known later hlater => ?_
      refine (release_rests user later).bind fun _ last hrests => ?_
      have hlast := hlater.rests hrests
      split
      · exact ensures_pure hlast
      · exact ensures_pure hlast
      · exact ensures_pure hlast
      · exact (change_coherent hremoves hlast user (.away false)).bind fun _ done hdone =>
          ensures_pure hdone

/-- A deletion leaves a node coherent, and if it succeeds the user has no row. -/
theorem delete_coherent (hremoves : outside.RemovesWork) (h : start.Coherent [] [] site)
    (user : String) :
    Ensures (delete outside user) site fun result later => start.Coherent [] [] later ∧
      (result = .ok () → later.store[user]? = none) := by
  have hdelete := storeDelete_ensures outside user site
  refine hdelete.bind fun result later hcall => ?_
  obtain ⟨faded, hfades, ⟨rfl, rfl⟩ | ⟨fault, rfl, -, rfl⟩⟩ := hcall
  · have hgone : (site.store.delete user)[user]? = none := by
      rw [Store.get?_delete, if_pos rfl]
    have hopen : start.Coherent [user] [user] (faded.withStore (site.store.delete user)) := by
      rw [← hfades.store]
      exact (h.rests hfades.toRests).delete user
    have hevict := cacheRemove_ensures outside user (faded.withStore (site.store.delete user))
    refine hevict.bind fun result dropped hcall => ?_
    obtain ⟨left, hleft, ⟨-, rfl⟩ | ⟨failure, -, hfault, -⟩⟩ := hcall
    · have hclosed : start.Coherent [] [user] (left.drop user) :=
        (hopen.rests hleft.toRests).drop fun other hmem hne =>
          absurd (List.mem_singleton.mp hmem) hne
      have htold : ∀ other, other ∉ ([] : List String) → ∀ known,
          (other ∉ [user] → (left.drop user).store.Backs other known) →
            (left.drop user).store.Backs other
              ((Event.invalidateCache start.topic (some user)).leaves start.topic other known) := by
        intro other _ known hknown
        rw [Event.leaves]
        split
        · exact Store.backs_none _ _
        · next hkey => exact hknown fun hmem => hkey ⟨rfl, by simp [List.mem_singleton.mp hmem]⟩
      refine (publishToPeers_coherent hclosed htold).bind fun _ told htold => ?_
      refine (forget_rests user told).bind fun _ last hrests => ?_
      refine ensures_pure ⟨htold.1.rests hrests, fun _ => ?_⟩
      rw [hrests.store, htold.2.1, drop, hleft.store]
      exact hgone
    · rw [hremoves] at hfault
      cases hfault
  · exact ensures_pure ⟨h.rests hfades.toRests, fun hdone => by cases hdone⟩

theorem taskResult_eq_ok_iff {α : Type} {result : Except StoreFault α} {value : α} :
    taskResult result = .ok value ↔ result = .ok value := by
  rcases result with (failure | _) | found <;> simp [taskResult]

/-- A removal leaves a node coherent, and if tracking is enabled and it succeeds the user has
no row. -/
theorem remove_coherent (hremoves : outside.RemovesWork) (h : start.Coherent [] [] site)
    (user : String) :
    Ensures (remove outside user) site fun result later => start.Coherent [] [] later ∧
      (site.settings.enabled = true → result = .ok () → later.store[user]? = none) := by
  refine ensures_get_bind ?_
  split
  · next hdisabled =>
    refine ensures_pure ⟨h, fun henabled => ?_⟩
    simp [henabled] at hdisabled
  · split
    · exact ensures_pure ⟨h, nofun⟩
    · have hdelete := delete_coherent hremoves h user
      refine hdelete.bind fun result later hrun => ?_
      obtain ⟨hlater, hgone⟩ := hrun
      refine (release_rests user later).bind fun _ last hrests => ?_
      refine ensures_pure ⟨hlater.rests hrests, fun _ hok => ?_⟩
      rw [hrests.store]
      exact hgone (taskResult_eq_ok_iff.mp hok)

/-- Where tracking is enabled, unless the store fails, the removal of a user with a good
identifier succeeds. -/
theorem remove_succeeds (hstore : ∀ count call, outside.storeFault count call = none)
    (henabled : site.settings.enabled = true) {user : String}
    (huser : Record.checkUser user = .ok ()) :
    Ensures (remove outside user) site fun result _ => result = .ok () := by
  have hdelete : Ensures (delete outside user) site fun result _ => result = .ok () := by
    have hdelete := storeDelete_ensures outside user site
    refine hdelete.bind fun result later hcall => ?_
    obtain ⟨faded, -, ⟨rfl, -⟩ | ⟨fault, -, hfault, -⟩⟩ := hcall
    · exact rfl
    · rw [hstore] at hfault
      cases hfault
  refine ensures_get_bind ?_
  rw [if_neg (by simp [henabled]), huser]
  refine hdelete.bind fun result later hresult => ?_
  refine (release_rests user later).bind fun _ last _ => ensures_pure ?_
  rw [hresult]
  rfl

/-- A removal is refused where the identifier does not pass the check. -/
theorem remove_refuses {user : String} {failure : Failure} (henabled : site.settings.enabled = true)
    (huser : Record.checkUser user = .error failure) :
    Ensures (remove outside user) site fun result later => result = .error failure ∧
      later = site := by
  refine ensures_get_bind ?_
  rw [if_neg (by simp [henabled]), huser]
  exact ensures_pure ⟨rfl, rfl⟩

theorem clearCaches_coherent (h : start.Coherent [] [] site) :
    Ensures (clearCaches outside) site fun _ later => start.Coherent [] [] later := by
  refine ensures_get_bind ?_
  split
  · exact ensures_pure h
  · refine (cachePurge_rests outside site).bind fun result purged hrests => ?_
    have hpurged := h.rests hrests
    split
    · exact ensures_pure hpurged
    · have htold : ∀ user, user ∉ ([] : List String) → ∀ known,
          (user ∉ ([] : List String) → purged.store.Backs user known) → purged.store.Backs user
            ((Event.invalidateCache start.topic none).leaves start.topic user known) := by
        intro user _ known _
        rw [Event.leaves, if_pos ⟨rfl, .inl rfl⟩]
        exact Store.backs_none _ _
      exact (publishToPeers_coherent hpurged htold).bind fun _ last hlast => ensures_pure hlast.1

end PresenceTracker.Engine
