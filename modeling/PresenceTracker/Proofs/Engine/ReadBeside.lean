import PresenceTracker.Proofs.Engine.Running

/-!
# Operations beside a read

A read that misses the cache takes a row from the store in one step, and fills the cache with
it in a later one; a read of several users takes all rows in one step, and fills the cache
with one after the other. Whatever comes in between, the cache agrees with the store afterwards
exactly if it showed some record of the user by then or the row still stands: a cache that
shows nothing of the user is taken to mean that the row still stands. That is so as long as
nothing takes the user out of the cache in between. A removal does, and so does a purge or an
invalidation after a change, and then the read caches a record that the store does not back.
-/

namespace PresenceTracker

/-- The node after a read has filled the cache with a row that it took from the store. -/
def Site.filled (site : Site) (record : Record) : Site :=
  ((Engine.backfill .calm record).run site).2

/-- What can come between the step of a read on the store and the filling of the cache. -/
inductive Interlude where
  /-- Something happens to the node: an operation, or an incident between operations. -/
  | happening (happening : Happening)
  /-- Another node has an entry dropped from the caches of a topic, or all entries. -/
  | invalidation (topic : Topic) (key : Option String)
  /-- The cache is filled with another row, by this read or another one. -/
  | filling (record : Record)

/-- The node after an interlude. -/
def Site.meet (site : Site) : Interlude → Site
  | .happening happening => site.happen .calm happening
  | .invalidation topic key =>
    ((Engine.receive .calm (.invalidateCache topic key)).run site).2
  | .filling record => site.filled record

/-- The node after some interludes. -/
def Site.meetAll (site : Site) (interludes : List Interlude) : Site :=
  interludes.foldl Site.meet site

/-- The cache is filled with a row of the user. -/
def Interlude.Fills (user : String) : Interlude → Prop
  | filling record => record.userId = user
  | happening _ | invalidation _ _ => False

/-- An interlude that does not take a user out of the cache. -/
def Interlude.Leaves (user : String) : Interlude → Prop
  | happening (.operation operation) => operation ≠ .remove user ∧ operation ≠ .clearCaches
  | happening (.incident (.vanish gone)) => gone ≠ user
  | happening (.incident (.spoil spoiled _)) => spoiled ≠ user
  | happening (.incident _) => True
  | invalidation _ key => key ≠ none ∧ key ≠ some user
  | filling _ => True

/-- A read has taken a row from the store, of one user or of several. -/
inductive Site.Fetches (site : Site) (record : Record) (later : Site) : Prop where
  /-- The row of one user was asked for. -/
  | one {user : String}
      (hget : (Engine.storeGet .calm user).run site = (.ok record, later))
  /-- The rows of several users were asked for. -/
  | several {users : List String} {records : List Record}
      (hget : (Engine.storeGetMany .calm users).run site = (.ok records, later))
      (hmem : record ∈ records)

namespace Engine

open Site

variable {outside : Outside} {site : Site}

/-- A read of a known user that misses the cache is a look-up, a step on the store and the
filling of the cache. -/
theorem read_eq_steps {user : String} {record : Record} {looked fetched : Site}
    (henabled : site.settings.enabled = true) (huser : Record.checkUser user = .ok ())
    (hmiss : (cacheGet .calm user).run site = (.ok none, looked))
    (hfetch : (storeGet .calm user).run looked = (.ok record, fetched)) :
    Ensures (read .calm user) site fun result later =>
      result = .ok record ∧ later = fetched.filled record := by
  have hlook : Ensures (cacheGet .calm user) site fun found later =>
      found = .ok none ∧ later = looked := by
    rw [Ensures, hmiss]
    exact ⟨rfl, rfl⟩
  have hread : Ensures (storeGet .calm user) looked fun result later =>
      result = .ok record ∧ later = fetched := by
    rw [Ensures, hfetch]
    exact ⟨rfl, rfl⟩
  refine ensures_get_bind ?_
  rw [if_neg (by simp [henabled]), huser]
  refine hlook.bind fun found looked' hcall => ?_
  obtain ⟨rfl, rfl⟩ := hcall
  refine hread.bind fun result fetched' hcall => ?_
  obtain ⟨rfl, rfl⟩ := hcall
  exact ⟨rfl, rfl⟩

/-- The rows that a read of several users takes fill the cache one after the other. -/
theorem gatherAllStored_fills (records : List Record) (found : Table Record) (site : Site) :
    Ensures (records.foldlM (gatherStored .calm) found) site fun _ later =>
      later = site.meetAll (records.map .filling) := by
  induction records generalizing found site with
  | nil => exact rfl
  | cons record rest ih =>
    rw [List.foldlM_cons]
    have hfirst : Ensures (gatherStored .calm found record) site fun _ later =>
        later = site.filled record := rfl
    refine hfirst.bind fun found' later hlater => ?_
    subst hlater
    exact ih found' (site.filled record)

/-- A read of several users some of whom the cache misses is the look-ups, a step on the store
and the filling of the cache with each row that was found. -/
theorem readMany_eq_steps {users : List String} {gathered : Gathered} {records : List Record}
    {looked fetched : Site} (henabled : site.settings.enabled = true)
    (hlook : (users.foldlM (gatherOne .calm) {}).run site = (gathered, looked))
    (hmissing : gathered.missing ≠ [])
    (hfetch : (storeGetMany .calm gathered.missing).run looked = (.ok records, fetched)) :
    Ensures (readMany .calm users) site fun _ later =>
      later = fetched.meetAll (records.map .filling) := by
  have hgather : Ensures (users.foldlM (gatherOne .calm) {}) site fun found later =>
      found = gathered ∧ later = looked := by
    rw [Ensures, hlook]
    exact ⟨rfl, rfl⟩
  have hread : Ensures (storeGetMany .calm gathered.missing) looked fun result later =>
      result = .ok records ∧ later = fetched := by
    rw [Ensures, hfetch]
    exact ⟨rfl, rfl⟩
  refine ensures_get_bind ?_
  rw [if_neg (by simp [henabled])]
  refine hgather.bind fun found looked' hcall => ?_
  obtain ⟨rfl, rfl⟩ := hcall
  rw [if_neg (by simpa using hmissing)]
  refine hread.bind fun result fetched' hcall => ?_
  obtain ⟨rfl, rfl⟩ := hcall
  exact (gatherAllStored_fills records found.found fetched').bind fun _ later hlater =>
    ensures_pure hlater

/-- An invalidation takes the users it is about out of the cache, if it is for this cache. -/
theorem receive_invalidates (hremoves : outside.RemovesWork) (topic : Topic)
    (key : Option String) (site : Site) :
    Ensures (receive outside (.invalidateCache topic key)) site fun _ later =>
      (site.Filed → later.Filed) ∧ ∀ user,
        (site.holding user).Fades outside user (later.holding user) ∨
          (key = none ∨ key = some user) ∧
            later.holding user = { site.holding user with cached := none } := by
  refine ensures_get_bind ?_
  split
  · cases key with
    | some gone =>
      refine (cacheRemove_gives hremoves gone site).bind fun _ later hcall => ?_
      obtain ⟨hworks, hrests, hlost⟩ := hcall
      refine ensures_pure ⟨hworks.filed, fun user => ?_⟩
      by_cases hsame : user = gone
      · subst hsame
        exact .inr ⟨.inr rfl, hrests.eq_lost hlost⟩
      · exact .inl (hworks.others user fun hmem => hsame (List.mem_singleton.mp hmem))
    | none =>
      refine (cachePurge_gives outside site).bind fun result later hcall => ?_
      obtain ⟨hfiled, -, -, hlost, hfades⟩ := hcall
      refine ensures_pure ⟨hfiled, fun user => ?_⟩
      cases result with
      | ok => exact .inr ⟨.inl rfl, hlost rfl user⟩
      | error failure => exact .inl (hfades failure rfl user)
  · exact ensures_pure ⟨fun h => h, fun _ => .inl (.refl _)⟩

end Engine

namespace Holding

variable {user : String} {held later : Holding} {record : Record}

/-- If the cache shows nothing of a user, the user's row still agrees with a record. -/
def Stands (record : Record) (held : Holding) : Prop :=
  held.cached = none → ∃ row, held.row = some row ∧ record.AgreesWith row

/-- A cache that shows the user has nothing to say of the row. -/
theorem Stands.of_cached {known : Record} (hcached : held.cached = some known) :
    held.Stands record := by
  intro hnone
  rw [hcached] at hnone
  cases hnone

theorem Stands.turns (h : held.Stands record) {transition : Transition} {now timeout : Moment}
    {result : Except Failure Record}
    (hturns : held.Turns .calm user transition now timeout result later) :
    later.Stands record := by
  have hspares := Outside.calm_spares user
  cases hturns with
  | fails hfades => exact hfades.eq_of_spares hspares ▸ h
  | keeps hfades _ _ => exact hfades.eq_of_spares hspares ▸ h
  | takes hfades hgives hdecision htakes =>
    rcases htakes.cached with hheld | ⟨-, hunspared⟩
    · exact .of_cached hheld
    · exact absurd hspares hunspared

theorem Stands.notes (h : held.Stands record) {moment : Moment}
    (hnotes : held.Notes .calm user moment later) : later.Stands record := by
  cases hnotes with
  | ignored hfades => exact hfades.eq_of_spares (Outside.calm_spares user) ▸ h
  | noted _ _ _ hcached => exact .of_cached hcached

/-- A sweep that turns the row shows the restored record in the cache. -/
theorem Stands.restores (h : held.Stands record) {now : Moment}
    (hrestores : held.Restores .calm user now later) : later.Stands record := by
  have hspares := Outside.calm_spares user
  by_cases hpassed : ∃ row, held.row = some row ∧ row.isExpired now = true
  · obtain ⟨row, hrow, hexpired⟩ := hpassed
    cases hrestores.turned row hrow hexpired with
    | superseded hcached _ hfades =>
      rw [hfades.eq_of_spares hspares]
      exact .of_cached hcached
    | spread _ _ _ hcached _ _ =>
      rcases hcached with hheld | ⟨-, hunspared⟩
      · exact .of_cached hheld
      · exact absurd hspares hunspared
  · have hkept := hrestores.kept fun row hrow =>
      Bool.eq_false_iff.mpr fun hexpired => hpassed ⟨row, hrow, hexpired⟩
    exact hkept.eq_of_spares hspares ▸ h

/-- No operation that leaves the user in the cache changes the row without showing the user in
the cache. -/
theorem Stands.undergoes (h : held.Stands record) {operation : Operation}
    (hleaves : operation ≠ .remove user ∧ operation ≠ .clearCaches) {now timeout : Moment}
    (hundergoes : held.Undergoes .calm user now timeout operation later) :
    later.Stands record := by
  cases hundergoes with
  | untouched hfades => exact hfades.eq_of_spares (Outside.calm_spares user) ▸ h
  | turned hturns => exact h.turns hturns
  | refilled _ hrefills =>
    rcases hrefills.cached with hsame | ⟨-, hunspared⟩ | ⟨row, -, hfilled⟩
    · intro hnone
      rw [hrefills.row]
      exact h (hsame ▸ hnone)
    · exact absurd (Outside.calm_spares user) hunspared
    · exact .of_cached hfilled
  | noted hnotes => exact h.notes hnotes
  | notedAway hnotes hturns => exact (h.notes hnotes).turns hturns
  | removed => exact absurd rfl hleaves.1
  | cleared => exact absurd rfl hleaves.2
  | restored hrestores => exact h.restores hrestores

end Holding

/-- Filling the cache leaves the cache in agreement with the store for the user exactly if it
showed the user before, or the record agrees with the row. -/
theorem Engine.backfill_backed_iff {site : Site} (record : Record)
    (hbacked : (site.holding record.userId).Backed) :
    Ensures (backfill .calm record) site fun _ later =>
      (later.holding record.userId).Backed ↔ ((site.holding record.userId).cached ≠ none ∨
        ∃ row, (site.holding record.userId).row = some row ∧ record.AgreesWith row) := by
  have hspares := Outside.calm_spares record.userId
  refine (backfill_fills record site).mono fun _ later hcall => ?_
  obtain ⟨-, ⟨hfades, hshown⟩ | ⟨hrests, hheld, hempty⟩⟩ := hcall
  · rw [hfades.eq_of_spares hspares]
    exact ⟨fun _ => .inl (hshown hspares), fun _ => hbacked⟩
  · have hnone := hempty Outside.calm_faultless.cache hspares
    constructor
    · intro hlater
      obtain ⟨row, hrow, hagrees⟩ := hlater record hheld
      exact .inr ⟨row, hrests.row ▸ hrow, hagrees⟩
    · intro hcases
      rcases hcases with hshown | ⟨row, hrow, hagrees⟩
      · exact absurd hnone hshown
      · exact .of_cached (hrests.row.trans hrow) hagrees (.inl hheld)

namespace Site

variable {site start fetched : Site} {user : String} {record : Record}

/-- A read of a user who has a row fetches it. -/
theorem fetches_of_row (hrow : site.store[user]? = some record) :
    site.Fetches record ((Engine.storeGet .calm user).run site).2 := by
  refine .one (Prod.ext ?_ rfl)
  show (site.store.find user).mapError StoreFault.refused = .ok record
  rw [(Store.find_eq_ok_iff site.store user record).mpr hrow]
  rfl

/-- A row that was fetched is the user's row, and to fetch it changes nothing that is held. -/
theorem Fetches.row (h : start.Fetches record fetched) (hfiled : start.Filed) :
    start.Works .calm [] fetched ∧ (fetched.holding record.userId).row = some record := by
  cases h with
  | @one user hget =>
    have hread := Engine.storeGet_gives .calm user start
    rw [Ensures, hget] at hread
    obtain ⟨hworks, hrow, -⟩ := hread
    have hstored := hrow record rfl
    have huser : record.userId = user := (hworks.filed hfiled).keyed user record hstored
    exact ⟨hworks, huser ▸ hstored⟩
  | @several users records hget hmem =>
    have hread := Engine.storeGetMany_ensures .calm users start
    rw [Ensures, hget] at hread
    obtain ⟨hfades, hrows⟩ := hread
    rw [hrows records rfl] at hmem
    have hstored := Store.mem_findMany hfiled.keyed hmem
    exact ⟨hfades.works, (hfades.works.fades record.userId).row.trans hstored⟩

/-- Filling the cache with a row is work on the row's user. -/
theorem works_filled (site : Site) (record : Record) :
    site.Works .calm [record.userId] (site.filled record) :=
  (Engine.backfill_fills record site).1

/-- Records stay under their users, whatever comes in between. -/
theorem Filed.meet (h : site.Filed) (interlude : Interlude) : (site.meet interlude).Filed := by
  have hremoves := Outside.calm_faultless.cache.removesWork
  cases interlude with
  | happening happening =>
    cases happening with
    | operation operation => exact (Operation.run_runs hremoves h operation).filed
    | incident incident => exact incident.filed_befall h
  | invalidation topic key => exact (Engine.receive_invalidates hremoves topic key site).1 h
  | filling record => exact (site.works_filled record).filed h

/-- Unless the cache is filled with another row of the user, it goes on agreeing with the store
for the user. -/
theorem Filed.meet_backed (hfiled : site.Filed) {interlude : Interlude}
    (hother : ¬interlude.Fills user) (h : (site.holding user).Backed) :
    ((site.meet interlude).holding user).Backed := by
  have hremoves := Outside.calm_faultless.cache.removesWork
  cases interlude with
  | happening happening =>
    cases happening with
    | operation operation =>
      exact h.undergoes ((Operation.run_runs hremoves hfiled operation).undergoes user)
    | incident incident =>
      have hmeet : site.meet (.happening (.incident incident)) = incident.befall site := rfl
      rcases incident.holding_befall site user with hsame | ⟨-, hlost⟩
      · rw [hmeet, hsame]
        exact h
      · rw [hmeet, hlost]
        exact fun _ => nofun
  | invalidation topic key =>
    obtain ⟨-, hholds⟩ := Engine.receive_invalidates hremoves topic key site
    rcases hholds user with hfades | ⟨-, hlost⟩
    · exact h.fades hfades
    · rw [Site.meet, hlost]
      exact fun _ => nofun
  | filling record =>
    have hne : user ∉ [record.userId] := fun hmem => hother (List.mem_singleton.mp hmem).symm
    exact h.fades ((site.works_filled record).others user hne)

/-- What leaves the user in the cache does not change the row behind its back. -/
theorem Filed.meet_stands (hfiled : site.Filed) {interlude : Interlude}
    (hleaves : interlude.Leaves user) (h : (site.holding user).Stands record) :
    ((site.meet interlude).holding user).Stands record := by
  have hremoves := Outside.calm_faultless.cache.removesWork
  have hspares := Outside.calm_spares user
  cases interlude with
  | happening happening =>
    cases happening with
    | operation operation =>
      exact h.undergoes hleaves ((Operation.run_runs hremoves hfiled operation).undergoes user)
    | incident incident =>
      rcases incident.holding_befall site user with hsame | ⟨rfl | ⟨frame, rfl⟩, -⟩
      · have hmeet : (site.meet (.happening (.incident incident))).holding user =
          site.holding user := hsame
        exact hmeet ▸ h
      · exact absurd rfl hleaves
      · exact absurd rfl hleaves
  | invalidation topic key =>
    obtain ⟨-, hholds⟩ := Engine.receive_invalidates hremoves topic key site
    rcases hholds user with hfades | ⟨hkey, -⟩
    · rw [Site.meet, hfades.eq_of_spares hspares]
      exact h
    · exact absurd hkey (not_or.mpr hleaves)
  | filling other =>
    by_cases hsame : user = other.userId
    · subst hsame
      obtain ⟨-, ⟨hfades, -⟩ | ⟨-, hheld, -⟩⟩ := Engine.backfill_fills other site
      · rw [Site.meet, filled, hfades.eq_of_spares hspares]
        exact h
      · exact .of_cached hheld
    · have hothers := (site.works_filled other).others user fun hmem =>
        hsame (List.mem_singleton.mp hmem)
      rw [Site.meet, hothers.eq_of_spares hspares]
      exact h

/-- Unless the cache is filled with another row of the user, it goes on agreeing with the store
for the user through all interludes. -/
theorem Filed.meetAll_backed (hfiled : site.Filed) {interludes : List Interlude}
    (hothers : ∀ interlude ∈ interludes, ¬interlude.Fills user)
    (h : (site.holding user).Backed) : ((site.meetAll interludes).holding user).Backed := by
  induction interludes generalizing site with
  | nil => exact h
  | cons interlude rest ih =>
    exact ih (hfiled.meet interlude)
      (fun other hmem => hothers other (List.mem_cons_of_mem interlude hmem))
      (hfiled.meet_backed (hothers interlude List.mem_cons_self) h)

/-- Interludes that leave the user in the cache do not change the row behind its back. -/
theorem Filed.meetAll_stands (hfiled : site.Filed) {interludes : List Interlude}
    (hleaves : ∀ interlude ∈ interludes, interlude.Leaves user)
    (h : (site.holding user).Stands record) :
    ((site.meetAll interludes).holding user).Stands record := by
  induction interludes generalizing site with
  | nil => exact h
  | cons interlude rest ih =>
    exact ih (hfiled.meet interlude)
      (fun other hmem => hleaves other (List.mem_cons_of_mem interlude hmem))
      (hfiled.meet_stands (hleaves interlude List.mem_cons_self) h)

/-- After a read has filled the cache with a row, the cache agrees with the store for the user
exactly if it showed some record of the user before, or the row that was read still stood; and
if nothing took the user out of the cache since the row was read, it does. In between the cache
may be filled with rows of other users. -/
theorem filled_agrees (hstep : start.InStep) (hfetches : start.Fetches record fetched)
    {interludes : List Interlude}
    (hothers : ∀ interlude ∈ interludes, ¬interlude.Fills record.userId) :
    ((∀ known, ((fetched.meetAll interludes).filled record).cached? record.userId = some known →
        ∃ row, ((fetched.meetAll interludes).filled record).store[record.userId]? = some row ∧
          known.AgreesWith row) ↔
      ((fetched.meetAll interludes).cached? record.userId ≠ none ∨
        ∃ row, (fetched.meetAll interludes).store[record.userId]? = some row ∧
          record.AgreesWith row)) ∧
    ((∀ interlude ∈ interludes, interlude.Leaves record.userId) →
      ∀ known, ((fetched.meetAll interludes).filled record).cached? record.userId = some known →
        ∃ row, ((fetched.meetAll interludes).filled record).store[record.userId]? = some row ∧
          known.AgreesWith row) := by
  obtain ⟨hworks, hrow⟩ := hfetches.row hstep.filed
  have hfiled := hworks.filed hstep.filed
  have hstart : (start.holding record.userId).Backed := hstep.backed record.userId
  have hbacked := hfiled.meetAll_backed hothers (hstart.fades (hworks.fades record.userId))
  have hiff : (((fetched.meetAll interludes).filled record).holding record.userId).Backed ↔ _ :=
    Engine.backfill_backed_iff record hbacked
  refine ⟨hiff, fun hleaves => hiff.mpr ?_⟩
  have hstands : ((fetched.meetAll interludes).holding record.userId).Stands record :=
    hfiled.meetAll_stands hleaves fun _ => ⟨record, hrow, .refl record⟩
  by_cases hempty : ((fetched.meetAll interludes).holding record.userId).cached = none
  · exact .inr (hstands hempty)
  · exact .inl hempty

theorem overdue_inStep : overdue.InStep := inStep_of_empty (Store.keyed_empty.insert rfl) rfl

/-- The user's row before the deadline is noticed. -/
def overdueRow : Record := ⟨"ada", .dnd, true, 10, none, some .away, some 4000⟩

/-- The node after a read has taken the row from the store. -/
def overdueFetched : Site := ((Engine.storeGet .calm "ada").run overdue).2

theorem overdue_fetches : overdue.Fetches overdueRow overdueFetched :=
  fetches_of_row (by decide +kernel)

/-- Between the two steps of a read another node drops somebody else, who is then cached again, a
sweep restores the user, and the user opens a channel. -/
def undisturbing : List Interlude :=
  [.invalidation .status (some "bob"), .filling (.offlineDefault "bob"),
    .happening (.operation .expire),
    .happening (.incident (.setClock 6000)),
    .happening (.operation (.change "ada" (.openChannel (some "general"))))]

/-- The read does not put the old row in the place of the newer record. -/
theorem filled_agrees_after_undisturbing :
    ∃ known row,
      ((overdueFetched.meetAll undisturbing).filled overdueRow).cached? "ada" = some known ∧
      ((overdueFetched.meetAll undisturbing).filled overdueRow).store["ada"]? = some row ∧
      known.status = .online ∧ known.AgreesWith row := by
  have hleaves : ∀ interlude ∈ undisturbing, interlude.Leaves "ada" := by
    simp [undisturbing, Interlude.Leaves]
  have hothers : ∀ interlude ∈ undisturbing, ¬interlude.Fills "ada" := by
    simp [undisturbing, Interlude.Fills, Record.offlineDefault]
  obtain ⟨-, hagree⟩ := filled_agrees overdue_inStep overdue_fetches hothers
  have hknown : ((overdueFetched.meetAll undisturbing).filled overdueRow).cached? "ada" =
      some ⟨"ada", .online, false, 6000, some "general", none, none⟩ := by decide +kernel
  obtain ⟨row, hrow, hagrees⟩ := hagree hleaves _ hknown
  exact ⟨_, row, hknown, hrow, rfl, hagrees⟩

/-- A read may cache a record that the store does not back: a user who is removed after the row
was read is cached without a row. -/
theorem removed_user_backfilled :
    ¬∀ (start fetched : Site) (record : Record) (interludes : List Interlude), start.InStep →
      start.Fetches record fetched →
      (∀ interlude ∈ interludes, ¬interlude.Fills record.userId) → ∀ known,
        ((fetched.meetAll interludes).filled record).cached? record.userId = some known →
        ∃ row, ((fetched.meetAll interludes).filled record).store[record.userId]? = some row ∧
          known.AgreesWith row := by
  intro hclaim
  have hcached : ((overdueFetched.meetAll [.happening (.operation (.remove "ada"))]).filled
      overdueRow).cached? "ada" = some overdueRow := by decide +kernel
  have hgone : ((overdueFetched.meetAll [.happening (.operation (.remove "ada"))]).filled
      overdueRow).store["ada"]? = none := by decide +kernel
  have hothers : ∀ interlude ∈ [Interlude.happening (.operation (.remove "ada"))],
      ¬interlude.Fills overdueRow.userId := by
    simp [Interlude.Fills]
  obtain ⟨row, hrow, -⟩ := hclaim _ _ _ _ overdue_inStep overdue_fetches hothers _ hcached
  cases hgone.symm.trans hrow

/-- A user who is changed and then dropped from the cache on behalf of another node is cached
with the row from before the change. -/
theorem dropped_user_backfilled :
    ((overdueFetched.meetAll [.happening (.operation (.change "ada" (.online true))),
        .invalidation .status (some "ada")]).filled overdueRow).cached? "ada" =
      some overdueRow ∧
    ((overdueFetched.meetAll [.happening (.operation (.change "ada" (.online true))),
        .invalidation .status (some "ada")]).filled overdueRow).store["ada"]? =
      some ⟨"ada", .online, false, 5000, none, none, none⟩ :=
  ⟨by decide +kernel, by decide +kernel⟩

end Site

end PresenceTracker
