import PresenceTracker.Proofs.Engine.Outcome
import PresenceTracker.Proofs.Engine.Upkeep

/-!
# What the operations on one user do

The functions of the engine that are about one user, from the loading of a record up to whole
operations: each one works on its user only, and makes of what is held of the user what its
kind of operation can make of it.
-/

namespace PresenceTracker.Engine

open Site

variable {outside : Outside} {site : Site}

theorem load_gives (hfiled : site.Filed) (user : String) :
    Ensures (load outside user) site fun result later => site.Works outside [] later ∧
      ∀ current, result = .ok current → (later.holding user).Gives outside user current ∧
        current.record.userId = user := by
  have hlook := cacheGet_gives outside user site
  refine hlook.bind fun found looked hcall => ?_
  obtain ⟨hlooked, hhit, hmiss⟩ := hcall
  split
  · next record =>
    have hcached := hhit record rfl
    have huser : record.userId = user := (hlooked.filed hfiled).cached user record hcached
    exact ensures_pure ⟨hlooked, of_eq_ok ⟨.cached hcached, huser⟩⟩
  · next hnone =>
    have hread := storeGet_gives outside user looked
    refine hread.bind fun result later hcall => ?_
    obtain ⟨hread, hrow, hgone⟩ := hcall
    have hlater := hlooked.trans hread
    have hmissed : outside.CacheWorks → (later.holding user).cached = none := fun hworks =>
      (hread.fades user).lost (hmiss hworks fun record hfound => hnone record hfound)
    split
    · next record =>
      have hstored := hrow record rfl
      have huser : record.userId = user := (hlater.filed hfiled).keyed user record hstored
      exact ensures_pure ⟨hlater, of_eq_ok ⟨.stored hmissed hstored, huser⟩⟩
    · next failure =>
      split
      · next hnotFound =>
        have habsent : outside.Truthful → (later.holding user).row = none := fun htruthful =>
          hgone htruthful failure rfl hnotFound
        exact ensures_pure ⟨hlater, of_eq_ok ⟨.missing hmissed habsent, rfl⟩⟩
      · exact ensures_pure ⟨hlater, fun _ => nofun⟩
    · exact ensures_pure ⟨hlater, fun _ => nofun⟩

/-- A record that is cached and told to the other nodes is what the cache shows, unless the
cache loses the user. -/
theorem cacheAndSync_gives (hremoves : outside.RemovesWork) (record : Record) (site : Site) :
    Ensures (cacheAndSync outside record) site fun _ later =>
      site.Works outside [record.userId] later ∧
      (site.holding record.userId).Rests (later.holding record.userId) ∧
      ((later.holding record.userId).cached = some record ∨
        (later.holding record.userId).cached = none ∧ ¬outside.Spares record.userId) := by
  have htell : ∀ later, Ensures (publishToPeers fun _ => .updateStatus record) later fun _ last =>
      later.Works outside [] last ∧ ∀ user, last.holding user = later.holding user :=
    publishToPeers_gives outside fun _ _ => rfl
  refine (cachePut_gives outside record site).bind fun result put hcall => ?_
  obtain ⟨hput, hrests, hheld, hrefused⟩ := hcall
  split
  · refine (htell put).mono fun _ last htold => ⟨hput.trans htold.1.idle, ?_⟩
    rw [htold.2]
    exact ⟨hrests, .inl (hheld rfl)⟩
  · next failure =>
    obtain ⟨-, hunspared⟩ := hrefused failure rfl
    refine (cacheRemove_gives hremoves record.userId put).bind fun _ dropped hcall => ?_
    obtain ⟨hdrop, hrests', hgone⟩ := hcall
    refine (htell dropped).mono fun _ last htold => ⟨(hput.trans hdrop).trans htold.1.idle, ?_⟩
    rw [htold.2]
    exact ⟨hrests.trans hrests', .inr ⟨hgone, hunspared⟩⟩

/-- Writing the next record of a user to the store, or failing to. -/
theorem persist_writes {user : String} {next : Record} (hnext : next.userId = user)
    (current : Current) (site : Site) :
    Ensures (persist outside user current next) site fun result later =>
      site.Works outside [user] later ∧
      (result = .ok () → (site.holding user).Writes current next (later.holding user)) ∧
      ∀ fault, result = .error fault →
        (site.holding user).Fades outside user (later.holding user) := by
  subst hnext
  have hnote : ∀ later, site.Works outside [next.userId] later →
      (site.holding next.userId).Writes current next (later.holding next.userId) →
      Ensures (do notePersisted next.userId; return .ok ()) later
        fun (result : Except StoreFault Unit) last => site.Works outside [next.userId] last ∧
          (result = .ok () →
            (site.holding next.userId).Writes current next (last.holding next.userId)) ∧
          ∀ fault, result = .error fault →
            (site.holding next.userId).Fades outside next.userId (last.holding next.userId) := by
    intro later hworks hwrites
    refine (notePersisted_tracks next.userId later).bind fun _ last htracks => ?_
    refine ensures_pure ⟨hworks.trans htracks.works.idle, fun _ => ?_, fun _ => nofun⟩
    rw [htracks.holding]
    exact hwrites
  unfold persist
  split
  · next hfull =>
    split
    · exact ensures_pure ⟨.refl site, nofun, fun _ _ => .refl _⟩
    · next hvalid =>
      refine (storeSave_gives outside next site).bind fun result later hcall => ?_
      obtain ⟨hworks, hwritten, hfailed⟩ := hcall
      cases result with
      | ok =>
        refine hnote later hworks (.of_fades ?_ (hwritten rfl))
        rw [Holding.Stores, if_pos hfull]
        exact ⟨hvalid, rfl⟩
      | error fault => exact ensures_pure ⟨hworks, nofun, fun _ _ => hfailed fault rfl⟩
  · next hpartial =>
    -- A write of the activity that is put off or fails leaves the row as it is.
    have hkept : ∀ later : Site,
        (site.holding next.userId).Fades outside next.userId (later.holding next.userId) →
        (site.holding next.userId).Writes current next (later.holding next.userId) := by
      refine fun later hfades => .of_fades ?_ hfades
      rw [Holding.Stores, if_neg hpartial]
      exact .inl rfl
    refine ensures_get_bind ?_
    split
    · exact ensures_pure ⟨.refl site, fun _ => hkept site (.refl _), fun _ => nofun⟩
    · have htouch := storeTouch_gives outside next.userId next.lastActivity site
      refine htouch.bind fun result later hcall => ?_
      obtain ⟨hworks, htouched, hfailed⟩ := hcall
      split
      · refine hnote later hworks (.of_fades ?_ (htouched rfl))
        rw [Holding.Stores, if_neg hpartial]
        exact .inr rfl
      · next failure =>
        exact ensures_pure ⟨hworks, fun _ => hkept later (hfailed _ rfl), fun _ => nofun⟩
      · exact ensures_pure ⟨hworks, nofun, fun _ _ => hfailed _ rfl⟩

/-- Committing the next record of a user repeats the current one, fails, or takes the next
one. -/
theorem commit_takes (hremoves : outside.RemovesWork) {user : String} {next : Record}
    (hnext : next.userId = user) (current : Current) (site : Site) :
    Ensures (commit outside user current next) site fun result later =>
      site.Works outside [user] later ∧
      ((result = .ok next ∧ current.persisted = true ∧ next = current.record ∧ later = site) ∨
        (result = .ok next ∧
          (site.holding user).Takes outside user current next (later.holding user)) ∨
        ((∃ fault, result = .error fault) ∧
          (site.holding user).Fades outside user (later.holding user))) := by
  unfold commit
  split
  · next hsame =>
    obtain ⟨hpersisted, hrecord⟩ : current.persisted = true ∧ next = current.record := by
      simpa using hsame
    exact ensures_pure ⟨.refl site, .inl ⟨rfl, hpersisted, hrecord, rfl⟩⟩
  · refine (persist_writes hnext current site).bind fun result persisted hcall => ?_
    obtain ⟨hworks, hwritten, hfailed⟩ := hcall
    split
    · next fault =>
      exact ensures_pure ⟨hworks, .inr (.inr ⟨⟨fault, rfl⟩, hfailed fault rfl⟩)⟩
    · obtain ⟨hrow, hshown, hannounced⟩ := hwritten rfl
      refine (cacheAndSync_gives hremoves next persisted).bind fun _ synced hcall => ?_
      rw [hnext] at hcall
      obtain ⟨hsync, hrests, hcached⟩ := hcall
      have hsynced := hworks.trans hsync
      split
      · next hvisible =>
        refine (broadcast_gives outside next synced).bind fun _ last hcall => ?_
        rw [hnext] at hcall
        obtain ⟨hlast, hown⟩ := hcall
        refine ensures_pure ⟨hsynced.trans hlast, .inr (.inl ⟨rfl, ?_⟩)⟩
        rw [hown]
        refine ⟨hrests.row ▸ hrow, hcached, ?_, ?_⟩
        · rw [if_pos hvisible, hrests.shown, hshown]
        · rw [if_pos hvisible, hrests.announced, hannounced]
      · next hinvisible =>
        refine ensures_pure ⟨hsynced, .inr (.inl ⟨rfl, hrests.row ▸ hrow, hcached, ?_, ?_⟩)⟩
        · rw [if_neg hinvisible, hrests.shown, hshown, List.append_nil]
        · rw [if_neg hinvisible, hrests.announced, hannounced, List.append_nil]

theorem perform_turns (hremoves : outside.RemovesWork) (hfiled : site.Filed) (user : String)
    (transition : Transition) :
    Ensures (perform outside user transition) site fun result later =>
      site.Works outside [user] later ∧
      (site.holding user).Turns outside user transition site.clock site.settings.awayTimeoutMs
        (taskResult result) (later.holding user) := by
  have hfails : ∀ {later : Site} (fault : StoreFault),
      (site.holding user).Fades outside user (later.holding user) →
      (site.holding user).Turns outside user transition site.clock site.settings.awayTimeoutMs
        (taskResult (.error fault)) (later.holding user) := by
    intro later fault hfades
    cases fault <;> exact .fails hfades
  have hload : Ensures (load outside user) site _ := load_gives hfiled user
  refine hload.bind fun result loaded hcall => ?_
  obtain ⟨hloaded, hgives⟩ := hcall
  have hfades := hloaded.fades user
  split
  · next fault => exact ensures_pure ⟨hloaded.idle, hfails fault hfades⟩
  · next current =>
    obtain ⟨hgives, huser⟩ := hgives current rfl
    refine ensures_get_bind ?_
    split
    · next failure _ => exact ensures_pure ⟨hloaded.idle, hfails (.refused failure) hfades⟩
    · next hkeep =>
      rw [hloaded.clock, hloaded.settings] at hkeep
      exact ensures_pure ⟨hloaded.idle, .keeps hfades hgives (.inl hkeep)⟩
    · next next hdecision =>
      have hnext := (Transition.userId_of_apply hdecision).trans huser
      rw [hloaded.clock, hloaded.settings] at hdecision
      refine (commit_takes hremoves hnext current loaded).mono fun result later hcall => ?_
      obtain ⟨hworks, hcases⟩ := hcall
      refine ⟨hloaded.idle.trans hworks, ?_⟩
      rcases hcases with ⟨rfl, hpersisted, rfl, rfl⟩ | ⟨rfl, htakes⟩ | ⟨⟨fault, rfl⟩, hfaded⟩
      · exact .keeps hfades hgives (.inr ⟨hpersisted, hdecision⟩)
      · exact .takes hfades hgives hdecision htakes
      · exact hfails fault (hfades.trans hfaded)

/-- A transition where tracking is enabled works on its user only; where tracking is disabled
it does nothing. -/
theorem change_turns (hremoves : outside.RemovesWork) (hfiled : site.Filed) (user : String)
    (transition : Transition) :
    Ensures (change outside user transition) site fun result later =>
      site.Works outside [user] later ∧
      (site.settings.enabled = true →
        (site.holding user).Turns outside user transition site.clock site.settings.awayTimeoutMs
          result (later.holding user)) ∧
      (site.settings.enabled = false → later = site) := by
  refine ensures_get_bind ?_
  split
  · next hdisabled =>
    have hoff : site.settings.enabled = false := by simpa using hdisabled
    refine ensures_pure ⟨.refl site, fun henabled => ?_, fun _ => rfl⟩
    rw [hoff] at henabled
    cases henabled
  · next henabled =>
    have hon : ¬site.settings.enabled = false := by simpa using henabled
    split
    · exact ensures_pure ⟨.refl site, fun _ => .fails (.refl _), fun hoff => absurd hoff hon⟩
    · have hperform : Ensures (perform outside user transition) site _ :=
        perform_turns hremoves hfiled user transition
      refine hperform.bind fun result performed hcall => ?_
      obtain ⟨hworks, hturns⟩ := hcall
      refine (release_tracks user performed).bind fun _ last htracks => ?_
      refine ensures_pure
        ⟨hworks.trans htracks.works.idle, fun _ => ?_, fun hoff => absurd hoff hon⟩
      rw [htracks.holding]
      exact hturns

/-- Filling the cache with a record works on its user only. A cache that works and spares the
user shows the record afterwards exactly if it showed nothing before. -/
theorem backfill_fills (record : Record) (site : Site) :
    Ensures (backfill outside record) site fun _ later =>
      site.Works outside [record.userId] later ∧
      ((site.holding record.userId).Fades outside record.userId (later.holding record.userId) ∧
          (outside.Spares record.userId → (site.holding record.userId).cached ≠ none) ∨
        (site.holding record.userId).Rests (later.holding record.userId) ∧
          (later.holding record.userId).cached = some record ∧
          (outside.CacheWorks → outside.Spares record.userId →
            (site.holding record.userId).cached = none)) := by
  have hlook := cacheGet_gives outside record.userId site
  refine hlook.bind fun found looked hcall => ?_
  obtain ⟨hlooked, hhit, hmiss⟩ := hcall
  have hfades := hlooked.fades record.userId
  split
  · next known =>
    refine (release_tracks record.userId looked).mono fun _ last htracks => ?_
    refine ⟨hlooked.idle.trans htracks.works.idle, .inl ?_⟩
    rw [htracks.holding]
    refine ⟨hfades, fun _ hnone => ?_⟩
    rw [hfades.of_cached (hhit known rfl)] at hnone
    cases hnone
  · next hnone =>
    refine (cachePut_gives outside record looked).bind fun result put hcall => ?_
    obtain ⟨hput, hrests, hheld, hrefused⟩ := hcall
    refine (release_tracks record.userId put).mono fun _ last htracks => ?_
    refine ⟨(hlooked.idle.trans hput).trans htracks.works.idle, ?_⟩
    rw [htracks.holding]
    cases result with
    | ok =>
      refine .inr ⟨hfades.toRests.trans hrests, hheld rfl, fun hworks hspares => ?_⟩
      have hempty := hmiss hworks fun other hfound => hnone other hfound
      rw [hfades.eq_of_spares hspares] at hempty
      exact hempty
    | error failure =>
      obtain ⟨hfailed, hunspared⟩ := hrefused failure rfl
      exact .inl ⟨hfades.trans hfailed, fun hspares => absurd hspares hunspared⟩

/-- Filling the cache with a row refills it. -/
theorem backfill_refills_user {record : Record}
    (hrow : (site.holding record.userId).row = some record) :
    Ensures (backfill outside record) site fun _ later =>
      site.Works outside [record.userId] later ∧
      (site.holding record.userId).Refills outside record.userId
        (later.holding record.userId) := by
  refine (backfill_fills record site).mono fun _ later hcall => ?_
  obtain ⟨hworks, ⟨hfades, -⟩ | ⟨hrests, hheld, -⟩⟩ := hcall
  · exact ⟨hworks, hfades.refills⟩
  · exact ⟨hworks, hrests, .inr (.inr ⟨record, hrow, hheld⟩)⟩

/-- A read of one user works on the user only. -/
theorem read_refills_user (hfiled : site.Filed) (user : String) :
    Ensures (read outside user) site fun _ later => site.Works outside [user] later ∧
      (site.holding user).Refills outside user (later.holding user) := by
  have hidle : site.Works outside [user] site ∧
      (site.holding user).Refills outside user (site.holding user) :=
    ⟨.refl site, Holding.Fades.refills (.refl _)⟩
  refine ensures_get_bind ?_
  split
  · exact ensures_pure hidle
  · split
    · exact ensures_pure hidle
    · have hlook := cacheGet_gives outside user site
      refine hlook.bind fun found looked hcall => ?_
      obtain ⟨hlooked, -, -⟩ := hcall
      have hfaded := (hlooked.fades user).refills
      split
      · exact ensures_pure ⟨hlooked.idle, hfaded⟩
      · have hread := storeGet_gives outside user looked
        refine hread.bind fun result later hcall => ?_
        obtain ⟨hread, hrow, -⟩ := hcall
        have hlater := hlooked.trans hread
        have hrefills := (hlater.fades user).refills
        split
        · next record =>
          have hstored := hrow record rfl
          obtain rfl : record.userId = user := (hlater.filed hfiled).keyed user record hstored
          refine (backfill_refills_user hstored).bind fun _ last hcall => ?_
          obtain ⟨hfill, hfilled⟩ := hcall
          exact ensures_pure ⟨hlater.idle.trans hfill, hrefills.trans hfilled⟩
        · split
          · exact ensures_pure ⟨hlater.idle, hrefills⟩
          · exact ensures_pure ⟨hlater.idle, hrefills⟩
        · exact ensures_pure ⟨hlater.idle, hrefills⟩

/-- Setting the last activity in the cache works on the user only. -/
theorem cacheActivity_notes (hfiled : site.Filed) (user : String) (moment : Moment) :
    Ensures (cacheActivity outside user moment) site fun _ later =>
      site.Works outside [user] later ∧
      (site.holding user).Notes outside user moment (later.holding user) := by
  have hload : Ensures (load outside user) site _ := load_gives hfiled user
  refine hload.bind fun result loaded hcall => ?_
  obtain ⟨hloaded, hgives⟩ := hcall
  have hfades := hloaded.fades user
  split
  · exact ensures_pure ⟨hloaded.idle, .ignored hfades⟩
  · next current =>
    obtain ⟨hgives, huser⟩ := hgives current rfl
    obtain ⟨record, persisted⟩ := current
    split
    · next hpersisted =>
      obtain rfl : persisted = true := hpersisted
      obtain rfl : record.userId = user := huser
      refine (cachePut_gives outside { record with lastActivity := moment } loaded).bind
        fun result put hcall => ?_
      obtain ⟨hput, hrests, hheld, hrefused⟩ := hcall
      refine ensures_pure ⟨hloaded.idle.trans hput, ?_⟩
      cases result with
      | ok => exact .noted hfades hgives (hfades.toRests.trans hrests) (hheld rfl)
      | error failure => exact .ignored (hfades.trans (hrefused failure rfl).1)
    · exact ensures_pure ⟨hloaded.idle, .ignored hfades⟩

/-- Setting the last activity works on the user only: it notes the activity, and then the
user may be found to have been idle for long enough. -/
theorem setLastActivity_undergoes (hremoves : outside.RemovesWork) (hfiled : site.Filed)
    (user : String) (moment : Moment) :
    Ensures (setLastActivity outside user moment) site fun _ later =>
      site.Works outside [user] later ∧
      (site.holding user).Undergoes outside user site.clock site.settings.awayTimeoutMs
        (.setLastActivity user moment) (later.holding user) := by
  refine ensures_get_bind ?_
  split
  · exact ensures_pure ⟨.refl site, .untouched (.refl _)⟩
  · next henabled =>
    have hon : site.settings.enabled = true := by simpa using henabled
    split
    · exact ensures_pure ⟨.refl site, .untouched (.refl _)⟩
    · have hnote : Ensures (cacheActivity outside user moment) site _ :=
        cacheActivity_notes hfiled user moment
      refine hnote.bind fun known noted hcall => ?_
      obtain ⟨hworks, hnotes⟩ := hcall
      refine (release_tracks user noted).bind fun _ later htracks => ?_
      have hlater := hworks.trans htracks.works.idle
      rw [← htracks.holding] at hnotes
      split
      · exact ensures_pure ⟨hlater, .noted hnotes⟩
      · exact ensures_pure ⟨hlater, .noted hnotes⟩
      · exact ensures_pure ⟨hlater, .noted hnotes⟩
      · have hchange : Ensures (change outside user (.away false)) later _ :=
          change_turns hremoves (hlater.filed hfiled) user (.away false)
        refine hchange.bind fun result last hcall => ?_
        obtain ⟨hlast, hturns, -⟩ := hcall
        rw [hlater.settings, hlater.clock] at hturns
        exact ensures_pure ⟨hlater.trans hlast, .notedAway hnotes (hturns hon)⟩

/-- Deleting a user works on the user only: it fails, or nothing is held of the user any
more. -/
theorem delete_undergoes (hremoves : outside.RemovesWork) (user : String) (now timeout : Moment)
    (site : Site) :
    Ensures (delete outside user) site fun _ later => site.Works outside [user] later ∧
      (site.holding user).Undergoes outside user now timeout (.remove user)
        (later.holding user) := by
  refine (storeDelete_gives outside user site).bind fun result deleted hcall => ?_
  obtain ⟨hworks, hdeleted, hfailed⟩ := hcall
  cases result with
  | error fault => exact ensures_pure ⟨hworks, .untouched (hfailed fault rfl)⟩
  | ok =>
    have hevict := cacheRemove_gives hremoves user deleted
    refine hevict.bind fun _ dropped hcall => ?_
    obtain ⟨hdrop, hrests, hcached⟩ := hcall
    have htell : Ensures (publishToPeers fun topic => .invalidateCache topic (some user))
        dropped _ := publishToPeers_gives outside (fun _ _ => rfl) dropped
    refine htell.bind fun _ told hcall => ?_
    obtain ⟨htold, hsame⟩ := hcall
    refine (forget_tracks user told).bind fun _ last htracks => ?_
    refine ensures_pure ⟨?_, ?_⟩
    · exact ((hworks.trans hdrop).trans htold.idle).trans htracks.works.idle
    · rw [htracks.holding, hsame, ((hdeleted rfl).toRests.trans hrests).eq_lost hcached]
      exact .removed

/-- A removal works on its user only. -/
theorem remove_undergoes (hremoves : outside.RemovesWork) (user : String) (now timeout : Moment)
    (site : Site) :
    Ensures (remove outside user) site fun _ later => site.Works outside [user] later ∧
      (site.holding user).Undergoes outside user now timeout (.remove user)
        (later.holding user) := by
  refine ensures_get_bind ?_
  split
  · exact ensures_pure ⟨.refl site, .untouched (.refl _)⟩
  · split
    · exact ensures_pure ⟨.refl site, .untouched (.refl _)⟩
    · have hdelete := delete_undergoes hremoves user now timeout site
      refine hdelete.bind fun result later hcall => ?_
      refine (release_tracks user later).bind fun _ last htracks => ?_
      refine ensures_pure ⟨hcall.1.trans htracks.works.idle, ?_⟩
      rw [htracks.holding]
      exact hcall.2

/-- Spreading a row that a sweep turned works on its user only. -/
theorem propagate_spreads (hremoves : outside.RemovesWork) (now : Moment) (record : Record)
    (site : Site) :
    Ensures (propagate outside now record) site fun _ later =>
      site.Works outside [record.userId] later ∧
      (site.holding record.userId).Spreads outside record.userId now record
        (later.holding record.userId) := by
  have hspread : ∀ looked : Site, site.Works outside [] looked →
      (outside.CacheWorks → ∀ known, (looked.holding record.userId).cached = some known →
        known.isExpired now = true) →
      Ensures (do cacheAndSync outside record; broadcast record; release record.userId) looked
        fun _ later => site.Works outside [record.userId] later ∧
          (site.holding record.userId).Spreads outside record.userId now record
            (later.holding record.userId) := by
    intro looked hlooked hpassed
    refine (cacheAndSync_gives hremoves record looked).bind fun _ synced hcall => ?_
    obtain ⟨hsync, hrests, hcached⟩ := hcall
    refine (broadcast_gives outside record synced).bind fun _ shown hcall => ?_
    obtain ⟨hshow, hown⟩ := hcall
    refine (release_tracks record.userId shown).mono fun _ last htracks => ?_
    have hfades := hlooked.fades record.userId
    refine ⟨((hlooked.idle.trans hsync).trans hshow).trans htracks.works.idle, ?_⟩
    rw [htracks.holding, hown]
    refine .spread hfades hpassed (hrests.row.trans hfades.row) hcached ?_ ?_
    · exact congrArg (· ++ [record.presence]) (hrests.shown.trans hfades.shown)
    · exact congrArg (· ++ [record.presence]) (hrests.announced.trans hfades.announced)
  refine (noteSwept_tracks record.userId now site).bind fun _ noted hnoted => ?_
  have hlook := cacheGet_gives outside record.userId noted
  refine hlook.bind fun found looked hcall => ?_
  obtain ⟨hlook, hhit, hmiss⟩ := hcall
  have hlooked := hnoted.works.trans hlook
  split
  · next known =>
    have hknown := hhit known rfl
    split
    · next hpassed =>
      refine hspread looked hlooked fun _ other hother => ?_
      rw [hknown] at hother
      cases hother
      exact hpassed
    · next hnewer =>
      refine (release_tracks record.userId looked).mono fun _ last htracks => ?_
      refine ⟨hlooked.idle.trans htracks.works.idle, ?_⟩
      rw [htracks.holding]
      have hfades := hlooked.fades record.userId
      exact .superseded (hfades.of_cached hknown) (by simpa using hnewer) hfades
  · next hnone =>
    refine hspread looked hlooked fun hworks known hknown => ?_
    rw [hmiss hworks fun other hfound => hnone other hfound] at hknown
    cases hknown

end PresenceTracker.Engine
