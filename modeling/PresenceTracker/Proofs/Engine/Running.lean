import PresenceTracker.Proofs.Engine.Effects
import PresenceTracker.Proofs.Engine.Run

/-!
# What an operation does to every user

An operation on one user leaves the others alone; a read of several users refills the cache
for some of them, a purge loses all users from the cache, and a sweep restores those whose
deadline has passed. So every operation makes of what is held of each user what its kind of
operation can make of it.
-/

namespace PresenceTracker

/-- Since a moment a site has at most filled its cache with rows. -/
structure Site.RefillsAll (outside : Outside) (site later : Site) : Prop where
  /-- Rows and cached records stay under their users. -/
  filed : site.Filed → later.Filed
  /-- Of every user the same is held, or the cache was filled with the row. -/
  refills : ∀ user, (site.holding user).Refills outside user (later.holding user)
  /-- The clock stands still. -/
  clock : later.clock = site.clock
  /-- The settings are the same. -/
  settings : later.settings = site.settings

namespace Site.RefillsAll

variable {outside : Outside} {site later last : Site}

/-- Two spells in which rows were taken over are one. -/
theorem trans (h : site.RefillsAll outside later) (h' : later.RefillsAll outside last) :
    site.RefillsAll outside last where
  filed hfiled := h'.filed (h.filed hfiled)
  refills user := (h.refills user).trans (h'.refills user)
  clock := h'.clock.trans h.clock
  settings := h'.settings.trans h.settings

/-- Work on one user that refills the user. -/
theorem of_works {user : String} (h : site.Works outside [user] later)
    (hrefills : (site.holding user).Refills outside user (later.holding user)) :
    site.RefillsAll outside later where
  filed := h.filed
  refills other := by
    by_cases hsame : other = user
    · exact hsame ▸ hrefills
    · exact (h.others other fun hmem => hsame (List.mem_singleton.mp hmem)).refills
  clock := h.clock
  settings := h.settings

/-- Where nobody was worked on no row had to be taken over. -/
theorem of_idle (h : site.Works outside [] later) : site.RefillsAll outside later :=
  ⟨h.filed, fun user => (h.fades user).refills, h.clock, h.settings⟩

end Site.RefillsAll

/-- Since a moment an operation has run on a site. -/
structure Site.Runs (outside : Outside) (operation : Operation) (site later : Site) : Prop where
  /-- Rows and cached records stay under their users. -/
  filed : later.Filed
  /-- The clock stands still. -/
  clock : later.clock = site.clock
  /-- The settings are the same. -/
  settings : later.settings = site.settings
  /-- What is held of each user is what the operation can make of it. -/
  undergoes : ∀ user, (site.holding user).Undergoes outside user site.clock
    site.settings.awayTimeoutMs operation (later.holding user)

namespace Site.Runs

variable {outside : Outside} {operation : Operation} {site later : Site}

/-- An operation that works on one user leaves all others alone. -/
theorem of_works {user : String} (hfiled : site.Filed) (h : site.Works outside [user] later)
    (hown : (site.holding user).Undergoes outside user site.clock site.settings.awayTimeoutMs
      operation (later.holding user)) : site.Runs outside operation later where
  filed := h.filed hfiled
  clock := h.clock
  settings := h.settings
  undergoes other := by
    by_cases hsame : other = user
    · exact hsame ▸ hown
    · exact .untouched (h.others other fun hmem => hsame (List.mem_singleton.mp hmem))

/-- An operation that only reads or purges and that refills the cache. -/
theorem of_refills (hfiled : site.Filed) (honly : operation.onlyObserves = true)
    (h : site.RefillsAll outside later) : site.Runs outside operation later where
  filed := h.filed hfiled
  clock := h.clock
  settings := h.settings
  undergoes user := .refilled honly (h.refills user)

end Site.Runs

namespace Engine

open Site

variable {outside : Outside} {site : Site}

/-- A read takes over the user's row at most. -/
theorem read_refillsAll (hfiled : site.Filed) (user : String) :
    Ensures (read outside user) site fun _ later => site.RefillsAll outside later := by
  have hread : Ensures (read outside user) site _ := read_refills_user hfiled user
  exact hread.mono fun _ _ hlater => .of_works hlater.1 hlater.2

/-- To fall back on the default record takes over nothing more. -/
theorem readOrDefault_refillsAll (hfiled : site.Filed) (user : String) :
    Ensures (readOrDefault outside user) site fun _ later => site.RefillsAll outside later := by
  refine (read_refillsAll hfiled user).bind fun result later hlater => ?_
  split
  · exact ensures_pure hlater
  · exact ensures_pure hlater

/-- To gather a user is work on nobody. -/
theorem gatherOne_works (gathered : Gathered) (user : String) (site : Site) :
    Ensures (gatherOne outside gathered user) site fun _ later => site.Works outside [] later := by
  unfold gatherOne
  split
  · exact ensures_pure (.refl site)
  · refine (cacheGet_gives outside user site).bind fun found looked hcall => ?_
    split <;> exact ensures_pure hcall.1

/-- A read of several users takes over rows of users whom the cache did not show. -/
theorem readMany_refillsAll (hfiled : site.Filed) (users : List String) :
    Ensures (readMany outside users) site fun _ later => site.RefillsAll outside later := by
  have hidle : site.RefillsAll outside site := .of_idle (.refl site)
  refine ensures_get_bind ?_
  split
  · exact ensures_pure hidle
  · have hgather : Ensures (users.foldlM (gatherOne outside) {}) site fun _ later =>
        site.Works outside [] later :=
      ensures_foldlM (fun _ _ later => site.Works outside [] later)
        (fun gathered user _ later hlater =>
          (gatherOne_works gathered user later).mono fun _ last hlast => hlater.trans hlast)
        (.refl site)
    refine hgather.bind fun gathered looked hlooked => ?_
    split
    · exact ensures_pure (.of_idle hlooked)
    · have hread := storeGetMany_ensures outside gathered.missing looked
      refine hread.bind fun result later hcall => ?_
      obtain ⟨hfades, hrows⟩ := hcall
      have hlater := hlooked.trans hfades.works
      split
      · next records =>
        have hrecords : ∀ record ∈ records, later.store[record.userId]? = some record := by
          intro record hmem
          rw [hrows records rfl] at hmem
          rw [hfades.store]
          exact Store.mem_findMany (hlooked.filed hfiled).keyed hmem
        have hfill : Ensures (records.foldlM (gatherStored outside) gathered.found) later
            fun _ last => later.RefillsAll outside last := by
          refine (ensures_foldlM (fun rest _ last => later.RefillsAll outside last ∧
            ∀ record ∈ rest, later.store[record.userId]? = some record) ?_
              ⟨.of_idle (.refl later), hrecords⟩).mono fun _ last hlast => hlast.1
          intro found record rest last hround
          obtain ⟨hlast, hrest⟩ := hround
          have hrow : (last.holding record.userId).row = some record :=
            (hlast.refills record.userId).row.trans (hrest record List.mem_cons_self)
          refine (backfill_refills_user hrow).bind fun _ filled hfilled => ?_
          exact ensures_pure ⟨hlast.trans (.of_works hfilled.1 hfilled.2), fun other hmem =>
            hrest other (List.mem_cons_of_mem record hmem)⟩
        exact hfill.bind fun _ last hlast => ensures_pure ((RefillsAll.of_idle hlater).trans hlast)
      · exact ensures_pure (.of_idle hlater)
      · exact ensures_pure (.of_idle hlater)

/-- A purge loses all users from the cache, and nothing else happens to them. -/
theorem clearCaches_runs (hfiled : site.Filed) :
    Ensures (clearCaches outside) site fun _ later => site.Runs outside .clearCaches later := by
  refine ensures_get_bind ?_
  split
  · exact ensures_pure (⟨hfiled, rfl, rfl, fun _ => .untouched (.refl _)⟩)
  · refine (cachePurge_gives outside site).bind fun result purged hcall => ?_
    obtain ⟨hpurged, hclock, hsettings, hlost, hfades⟩ := hcall
    split
    · next failure =>
      exact ensures_pure ⟨hpurged hfiled, hclock, hsettings, fun user =>
        .untouched (hfades failure rfl user)⟩
    · have htell : Ensures (publishToPeers fun topic => .invalidateCache topic none) purged _ :=
        publishToPeers_gives outside (fun _ _ => rfl) purged
      refine htell.bind fun _ last hcall => ?_
      obtain ⟨htold, hsame⟩ := hcall
      refine ensures_pure ⟨htold.filed (hpurged hfiled), htold.clock.trans hclock,
        htold.settings.trans hsettings, fun user => ?_⟩
      rw [hsame, hlost rfl user]
      exact .cleared

/-- Spreading turned rows of different users works on these users only. -/
theorem propagateAll_spreads (hremoves : outside.RemovesWork) (now : Moment)
    {pending : List Record} (hnodup : (pending.map Record.userId).Nodup) (site : Site) :
    Ensures (pending.forM (propagate outside now)) site fun _ later =>
      site.Works outside (pending.map Record.userId) later ∧
      ∀ record ∈ pending, (site.holding record.userId).Spreads outside record.userId now record
        (later.holding record.userId) := by
  induction pending generalizing site with
  | nil => exact ⟨.refl site, fun _ => nofun⟩
  | cons first rest ih =>
    obtain ⟨hfirst, hrest⟩ : first.userId ∉ rest.map Record.userId ∧
      (rest.map Record.userId).Nodup := List.nodup_cons.mp hnodup
    refine (propagate_spreads hremoves now first site).bind fun _ later hcall => ?_
    obtain ⟨hworks, hspreads⟩ := hcall
    refine (ih hrest later).mono fun _ last hcall => ⟨?_, fun record hmem => ?_⟩
    · refine (hworks.mono ?_).trans (hcall.1.mono ?_)
      · exact fun user hmem => List.mem_cons.mpr (.inl (List.mem_singleton.mp hmem))
      · exact fun user hmem => List.mem_cons_of_mem _ hmem
    · rcases List.mem_cons.mp hmem with rfl | hmem
      · exact hspreads.fades (hcall.1.others _ hfirst)
      · have hne : record.userId ∉ [first.userId] := fun heq =>
          hfirst (List.mem_singleton.mp heq ▸ List.mem_map_of_mem hmem)
        exact .after_fades (hworks.others _ hne) (hcall.2 record hmem)

/-- A sweep fails and changes nothing, or turns the rows whose deadline has passed and spreads
them. -/
theorem sweep_restores (hremoves : outside.RemovesWork) (hfiled : site.Filed) :
    Ensures (sweep outside) site fun result later => (site.Filed → later.Filed) ∧
      later.clock = site.clock ∧ later.settings = site.settings ∧
      ((result = .ok (site.turned outside site.clock) ∧ ∀ user,
          (site.holding user).Restores outside user site.clock (later.holding user)) ∨
        ((∃ fault, result = .error fault) ∧ ∀ user,
          (site.holding user).Fades outside user (later.holding user))) := by
  refine ensures_get_bind ?_
  have hsweep := storeSweep_ensures outside site.clock site
  refine hsweep.bind fun result later hcall => ?_
  obtain ⟨faded, hfades, ⟨rfl, rfl⟩ | ⟨fault, rfl, -, rfl⟩⟩ := hcall
  · show Ensures (do
        (site.turned outside site.clock).forM (propagate outside site.clock)
        pruneSlots site.clock
        return Except.ok (site.turned outside site.clock))
      (faded.withStore (site.store.sweep site.clock)) _
    have hnodup := nodup_users_turned outside hfiled.keyed site.clock
    have hspread := propagateAll_spreads hremoves site.clock hnodup
      (faded.withStore (site.store.sweep site.clock))
    refine hspread.bind fun _ spread hcall => ?_
    obtain ⟨hworks, hspreads⟩ := hcall
    refine (pruneSlots_tracks site.clock spread).bind fun _ last htracks => ?_
    have hlast := hworks.trans htracks.works.idle
    have hswept : site.Filed → (faded.withStore (site.store.sweep site.clock)).Filed :=
      fun hfiled => (hfades.works.filed hfiled).withStore (hfiled.keyed.sweep site.clock)
    refine ensures_pure ⟨fun hfiled => hlast.filed (hswept hfiled), hlast.clock.trans hfades.clock,
      hlast.settings.trans hfades.settings, .inl ⟨rfl, fun user => ?_⟩⟩
    have hturned : ∀ turned, site.store[user]?.map (Store.sweepRow site.clock) = turned →
        Holding.Fades outside user { site.holding user with row := turned }
          ((faded.withStore (site.store.sweep site.clock)).holding user) := by
      intro turned hturned
      have hfaded := hfades.works.fades user
      refine ⟨⟨?_, hfaded.shown, hfaded.announced⟩, hfaded.cached⟩
      exact (Store.get?_sweep site.store site.clock user).trans hturned
    rw [htracks.holding]
    refine ⟨fun row hrow hpassed => ?_, fun hahead => ?_⟩
    · have hrow' : site.store[user]? = some row := hrow
      have hmem : row.restored ∈ site.turned outside site.clock :=
        mem_turned_iff.mpr ((Store.mem_expired_iff _ _ _).mpr ⟨user, row, hrow', hpassed, rfl⟩)
      have huser : row.restored.userId = user := hfiled.keyed user row hrow'
      refine .after_fades (hturned _ ?_) (huser ▸ hspreads row.restored hmem)
      rw [hrow', Option.map_some, Store.sweepRow, if_pos hpassed]
    · have hkept : user ∉ (site.turned outside site.clock).map Record.userId := by
        intro hmem
        obtain ⟨row, hrow, hpassed⟩ :=
          (Store.mem_users_expired_iff hfiled.keyed _ _).mp (mem_users_turned_iff.mp hmem)
        rw [hahead row hrow] at hpassed
        cases hpassed
      refine (hturned _ ?_).trans (hworks.others user hkept)
      cases hrow : site.store[user]? with
      | none => rfl
      | some row => rw [Option.map_some, Store.sweepRow, hahead row hrow, if_neg Bool.false_ne_true]
  · exact ensures_pure ⟨hfades.works.filed, hfades.clock, hfades.settings, .inr ⟨⟨fault, rfl⟩,
      fun user => hfades.works.fades user⟩⟩

/-- A sweep of a node that tracks users either fails or restores; where tracking is disabled it
does nothing. -/
theorem expire_restores (hremoves : outside.RemovesWork) (hfiled : site.Filed) :
    Ensures (expire outside) site fun result later => (site.Filed → later.Filed) ∧
      later.clock = site.clock ∧ later.settings = site.settings ∧
      ((site.settings.enabled = true ∧ result = .ok (site.turned outside site.clock) ∧ ∀ user,
          (site.holding user).Restores outside user site.clock (later.holding user)) ∨
        ((site.settings.enabled = true → ∃ failure, result = .error failure) ∧ ∀ user,
          (site.holding user).Fades outside user (later.holding user))) := by
  refine ensures_get_bind ?_
  split
  · next hdisabled =>
    refine ensures_pure ⟨fun h => h, rfl, rfl, .inr ⟨fun henabled => ?_, fun _ => .refl _⟩⟩
    simp [henabled] at hdisabled
  · next henabled =>
    have hsweep : Ensures (sweep outside) site _ := sweep_restores hremoves hfiled
    refine hsweep.bind fun result later hcall => ?_
    obtain ⟨hfiled, hclock, hsettings, ⟨rfl, hrestores⟩ | ⟨⟨fault, rfl⟩, hfades⟩⟩ := hcall
    · exact ensures_pure ⟨hfiled, hclock, hsettings, .inl ⟨by simpa using henabled, rfl, hrestores⟩⟩
    · refine ensures_pure ⟨hfiled, hclock, hsettings, .inr ⟨fun _ => ?_, hfades⟩⟩
      cases fault <;> exact ⟨_, rfl⟩

end Engine

/-- Every operation makes of what is held of each user what it can make of it. -/
theorem Operation.run_runs {outside : Outside} (hremoves : outside.RemovesWork) {site : Site}
    (hfiled : site.Filed) (operation : Operation) :
    Ensures (operation.run outside) site fun _ later => site.Runs outside operation later := by
  cases operation with
  | change user transition =>
    have hchange : Ensures (Engine.change outside user transition) site _ :=
      Engine.change_turns hremoves hfiled user transition
    refine hchange.bind fun result later hcall => ensures_pure ?_
    obtain ⟨hworks, hturns, hoff⟩ := hcall
    refine .of_works hfiled hworks ?_
    cases henabled : site.settings.enabled with
    | true => exact .turned (hturns henabled)
    | false =>
      rw [hoff henabled]
      exact .untouched (.refl _)
  | read user =>
    exact (Engine.read_refillsAll hfiled user).bind fun _ later hlater =>
      ensures_pure (.of_refills hfiled rfl hlater)
  | readOrDefault user =>
    exact (Engine.readOrDefault_refillsAll hfiled user).bind fun _ later hlater =>
      ensures_pure (.of_refills hfiled rfl hlater)
  | readMany users =>
    exact (Engine.readMany_refillsAll hfiled users).bind fun _ later hlater =>
      ensures_pure (.of_refills hfiled rfl hlater)
  | setLastActivity user moment =>
    have hset : Ensures (Engine.setLastActivity outside user moment) site _ :=
      Engine.setLastActivity_undergoes hremoves hfiled user moment
    exact hset.bind fun _ later hcall => ensures_pure (.of_works hfiled hcall.1 hcall.2)
  | remove user =>
    have hremove :=
      Engine.remove_undergoes hremoves user site.clock site.settings.awayTimeoutMs site
    exact hremove.bind fun _ later hcall => ensures_pure (.of_works hfiled hcall.1 hcall.2)
  | clearCaches =>
    exact (Engine.clearCaches_runs hfiled).bind fun _ later hruns => ensures_pure hruns
  | expire =>
    have hexpire : Ensures (Engine.expire outside) site _ :=
      Engine.expire_restores hremoves hfiled
    refine hexpire.bind fun result later hcall => ensures_pure ?_
    obtain ⟨hlater, hclock, hsettings, ⟨-, -, hrestores⟩ | ⟨-, hfades⟩⟩ := hcall
    · exact ⟨hlater hfiled, hclock, hsettings, fun user => .restored (hrestores user)⟩
    · exact ⟨hlater hfiled, hclock, hsettings, fun user => .untouched (hfades user)⟩

/-- A node that is in step with the store keeps records under their users. -/
theorem Site.InStep.filed {site : Site} (h : site.InStep) : site.Filed := by
  refine ⟨h.keyed, fun user record hcached => ?_⟩
  obtain ⟨row, hrow, hagrees⟩ := h.backed user record hcached
  exact hagrees.userId_eq.trans (h.keyed user row hrow)

/-- An incident leaves records under their users. -/
theorem Incident.filed_befall (incident : Incident) {site : Site} (h : site.Filed) :
    (incident.befall site).Filed := by
  have hrefills := Incident.befall_refills site incident
  refine ⟨hrefills.store ▸ h.keyed, fun user record hcached => ?_⟩
  rcases hrefills.cached user record hcached with hheld | hrow
  · exact h.cached user record hheld
  · exact h.keyed user record hrow

/-- An incident may lose the user it is about from the cache, and nothing else happens to any
user. -/
theorem Incident.holding_befall (incident : Incident) (site : Site) (user : String) :
    (incident.befall site).holding user = site.holding user ∨
      (incident = .vanish user ∨ ∃ frame, incident = .spoil user frame) ∧
        (incident.befall site).holding user = { site.holding user with cached := none } := by
  cases incident with
  | setClock now => exact .inl rfl
  | configure settings => exact .inl rfl
  | vanish gone =>
    rw [befall, Site.holding_drop]
    split
    · next hsame => exact .inr ⟨.inl (hsame ▸ rfl), rfl⟩
    · exact .inl rfl
  | spoil spoiled frame =>
    have hcached := cached?_spoil site spoiled frame user
    by_cases hsame : spoiled = user
    · rw [if_pos hsame] at hcached
      exact .inr ⟨.inr ⟨frame, hsame ▸ rfl⟩,
        congrArg (fun cached => { site.holding user with cached }) hcached⟩
    · rw [if_neg hsame] at hcached
      exact .inl (congrArg (fun cached => { site.holding user with cached }) hcached)

end PresenceTracker
