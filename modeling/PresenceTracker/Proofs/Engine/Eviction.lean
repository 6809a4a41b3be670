import PresenceTracker.Proofs.Engine.Committing
import PresenceTracker.Proofs.Engine.Running

/-!
# What a cache shows after news of a user

A node learns of a newer record of a user when it commits a change, when its own sweep restores
the user, and when another node tells of a change. After the first two its cache shows the newer
record or nothing, even if the cache refuses to be written, since a record that is refused takes
the old entry with it. What another node tells is only written: where the cache refuses it, the
old entry stays. All this is said of one user and asks only that removals of that user's entry
work; other calls may fail.
-/

namespace PresenceTracker

/-- Removals of a user from the cache work. -/
def Outside.Evicts (outside : Outside) (user : String) : Prop :=
  ∀ count, outside.cacheFault count (.remove user) = none

namespace Site

variable {site later last : Site} {user : String} {record : Record} {now : Moment}

/-- Of a user the cache shows a certain record or nothing. -/
def ShowsOnly (user : String) (record : Record) (site : Site) : Prop :=
  ∀ known, site.cached? user = some known → known = record

/-- Since a moment nothing new about a user has come into the cache. -/
def ShowsNoMore (user : String) (site later : Site) : Prop :=
  ∀ known, later.cached? user = some known → site.cached? user = some known

/-- An unchanged cache shows nothing new. -/
theorem ShowsNoMore.of_cache (h : later.cache = site.cache) : site.ShowsNoMore user later := by
  intro known hknown
  rw [cached?, h] at hknown
  exact hknown

/-- A cache at rest shows nothing new. -/
theorem Rests.showsNoMore (h : site.Rests later) : site.ShowsNoMore user later :=
  fun _ hknown => h.cached? hknown

/-- Two spells in which nothing new has come into the cache are one. -/
theorem ShowsNoMore.trans (h : site.ShowsNoMore user later) (h' : later.ShowsNoMore user last) :
    site.ShowsNoMore user last := fun known hknown => h known (h' known hknown)

/-- A cache into which nothing new has come shows no other record than before. -/
theorem ShowsOnly.after (h : site.ShowsOnly user record) (h' : site.ShowsNoMore user later) :
    later.ShowsOnly user record := fun known hknown => h known (h' known hknown)

/-- A record that is cached is the only one that the cache shows of its user. -/
theorem showsOnly_hold (site : Site) (record : Record) :
    (site.hold record).ShowsOnly record.userId record := by
  intro known hknown
  rw [cached?_hold, if_pos rfl] at hknown
  exact (Option.some.inj hknown).symm

/-- Of a user who was removed the cache shows nothing. -/
theorem showsOnly_drop (site : Site) (user : String) (record : Record) :
    (site.drop user).ShowsOnly user record := by
  intro known hknown
  rw [cached?_drop, if_pos rfl] at hknown
  cases hknown

/-- A record that is cached is nothing new about other users. -/
theorem showsNoMore_hold (site : Site) {record : Record} (hother : user ≠ record.userId) :
    site.ShowsNoMore user (site.hold record) := by
  intro known hknown
  rw [cached?_hold, if_neg hother.symm] at hknown
  exact hknown

/-- A removal is nothing new about other users. -/
theorem showsNoMore_drop (site : Site) {gone : String} (hother : user ≠ gone) :
    site.ShowsNoMore user (site.drop gone) := by
  intro known hknown
  rw [cached?_drop, if_neg hother.symm] at hknown
  exact hknown

/-- After a sweep at `now` has turned a row, the cache shows the restored record or nothing, or
only what it showed before, and that has not passed. -/
def Settles (now : Moment) (restored : Record) (site later : Site) : Prop :=
  later.ShowsOnly restored.userId restored ∨
    ∃ known, site.cached? restored.userId = some known ∧ known.isExpired now = false ∧
      later.ShowsOnly restored.userId known

/-- Before a row is spread the cache may lose its user. -/
theorem Settles.of_before (h : site.ShowsNoMore record.userId later)
    (h' : later.Settles now record last) : site.Settles now record last := by
  rcases h' with honly | ⟨known, hknown, hahead, honly⟩
  · exact .inl honly
  · exact .inr ⟨known, h known hknown, hahead, honly⟩

/-- After a row was spread the cache may lose its user. -/
theorem Settles.after (h : site.Settles now record later)
    (h' : later.ShowsNoMore record.userId last) : site.Settles now record last := by
  rcases h with honly | ⟨known, hknown, hahead, honly⟩
  · exact .inl (honly.after h')
  · exact .inr ⟨known, hknown, hahead, honly.after h'⟩

end Site

namespace Engine

open Site

variable {outside : Outside} {site : Site}

/-- To tell the peers leaves the cache alone. -/
theorem publishToPeers_cache (event : Topic → Event) (site : Site) :
    Ensures (publishToPeers event) site fun _ later => later.cache = site.cache := by
  refine ensures_get_bind ?_
  split
  · exact ensures_modify rfl
  · exact ensures_pure rfl

/-- To show a record to clients leaves the cache alone. -/
theorem broadcast_cache (record : Record) (site : Site) :
    Ensures (broadcast record) site fun _ later => later.cache = site.cache := rfl

/-- A record that is cached is all that the cache then shows of its user, whether the cache
takes it or refuses it and loses the entry. Other users are left alone. -/
theorem cacheAndSync_shows (outside : Outside) (record : Record) (site : Site) :
    Ensures (cacheAndSync outside record) site fun _ later =>
      (outside.Evicts record.userId → later.ShowsOnly record.userId record) ∧
        ∀ user, user ≠ record.userId → site.ShowsNoMore user later := by
  refine (cachePut_ensures outside record site).bind fun result put hcall => ?_
  obtain ⟨faded, hfades, ⟨rfl, rfl⟩ | ⟨failure, rfl, -, rfl⟩⟩ := hcall
  · refine (publishToPeers_cache _ (faded.hold record)).mono fun _ later hcache => ?_
    refine ⟨fun _ => (showsOnly_hold faded record).after (.of_cache hcache), fun user hother => ?_⟩
    exact (hfades.showsNoMore.trans (showsNoMore_hold faded hother)).trans (.of_cache hcache)
  · refine (cacheRemove_ensures outside record.userId put).bind fun result removed hcall => ?_
    refine (publishToPeers_cache _ removed).mono fun _ later hcache => ?_
    obtain ⟨lost, hlost, ⟨-, rfl⟩ | ⟨failure, -, hfault, rfl⟩⟩ := hcall
    · refine ⟨fun _ => (showsOnly_drop lost record.userId record).after (.of_cache hcache),
        fun user hother => ?_⟩
      have hremoved : put.ShowsNoMore user lost := hlost.showsNoMore
      exact ((hfades.showsNoMore.trans hremoved).trans (showsNoMore_drop lost hother)).trans
        (.of_cache hcache)
    · refine ⟨fun hevicts => ?_, fun user _ => ?_⟩
      · rw [hevicts] at hfault
        cases hfault
      · exact (hfades.showsNoMore.trans hlost.showsNoMore).trans (.of_cache hcache)

/-- A change that is committed is all that the cache then shows of its user. -/
theorem commit_shows {user : String} {current : Current} {next : Record}
    (hevicts : outside.Evicts next.userId)
    (hother : (current.persisted && next = current.record) = false) (site : Site) :
    Ensures (commit outside user current next) site fun result later =>
      (∃ record, result = .ok record) → later.ShowsOnly next.userId next := by
  unfold commit
  rw [if_neg (Bool.eq_false_iff.mp hother)]
  refine (ensures_run (persist outside user current next) site).bind fun result written _ => ?_
  split
  · exact ensures_pure nofun
  · refine (cacheAndSync_shows outside next written).bind fun _ synced hcall => ?_
    have hsynced := hcall.1 hevicts
    split
    · exact (broadcast_cache next synced).bind fun _ _ hcache =>
        ensures_pure fun _ => hsynced.after (.of_cache hcache)
    · exact ensures_pure fun _ => hsynced

/-- The change that a transition comes to is all that the cache then shows of its user. -/
theorem perform_shows (hfiled : site.Filed) {user : String} (hevicts : outside.Evicts user)
    (transition : Transition) :
    Ensures (perform outside user transition) site fun result later =>
      ∀ pending, site.pendingStep outside user transition = some pending →
        (∃ record, result = .ok record) → later.ShowsOnly user pending.next := by
  refine ((load_gives hfiled user).and (ensures_run (load outside user) site)).bind
    fun result loaded hcall => ?_
  obtain ⟨⟨-, hgives⟩, hrun⟩ := hcall
  rw [Site.pendingStep, hrun]
  cases result with
  | error fault => exact ensures_pure fun _ hpending => by cases hpending
  | ok current =>
    refine ensures_get_bind ?_
    dsimp only
    cases hdecision : transition.decision current loaded.clock loaded.settings.awayTimeoutMs with
    | error failure => exact ensures_pure fun _ hpending => by cases hpending
    | ok decision =>
      cases decision with
      | keep => exact ensures_pure fun _ hpending => by cases hpending
      | apply next =>
        have huser : next.userId = user :=
          (Transition.userId_of_apply hdecision).trans (hgives current rfl).2
        dsimp only
        split
        · next hsame =>
          unfold commit
          rw [if_pos hsame]
          exact ensures_pure fun _ hpending => by cases hpending
        · next hother =>
          rw [← huser] at hevicts
          refine (commit_shows hevicts (Bool.eq_false_iff.mpr hother) loaded).mono
            fun _ later hshows pending hpending hok => ?_
          cases hpending
          exact huser ▸ hshows hok

/-- The change that a transition comes to is all that the cache shows of the user afterwards. -/
theorem change_shows (hfiled : site.Filed) {user : String} (hevicts : outside.Evicts user)
    (transition : Transition) :
    Ensures (change outside user transition) site fun result later =>
      ∀ pending, site.pendingChange outside user transition = some pending →
        (∃ record, result = .ok record) → later.ShowsOnly user pending.next := by
  unfold Site.pendingChange
  refine ensures_get_bind ?_
  cases henabled : site.settings.enabled with
  | false => exact ensures_pure fun _ => nofun
  | true =>
    rw [if_neg (by simp), if_neg (by simp)]
    cases hcheck : Record.checkUser user with
    | error failure => exact ensures_pure fun _ => nofun
    | ok _ =>
      refine (perform_shows hfiled hevicts transition).bind fun result later hlater => ?_
      refine (release_rests user later).bind fun _ last hlast => ?_
      refine ensures_pure fun pending hpending hok => ?_
      have hperformed : ∃ record, result = .ok record := by
        obtain ⟨record, hrecord⟩ := hok
        match result with
        | .ok performed => exact ⟨performed, rfl⟩
        | .error (.refused _) => cases hrecord
        | .error .killed => cases hrecord
      exact (hlater pending hpending hperformed).after hlast.showsNoMore

/-- The change that setting the last activity comes to is all that the cache shows of the user
afterwards. -/
theorem setLastActivity_shows (hfiled : site.Filed) {user : String}
    (hevicts : outside.Evicts user) (moment : Moment) :
    Ensures (setLastActivity outside user moment) site fun result later =>
      ∀ pending, site.pendingAway outside user moment = some pending →
        result = .ok () → later.ShowsOnly user pending.next := by
  unfold Site.pendingAway
  refine ensures_get_bind ?_
  cases henabled : site.settings.enabled with
  | false => exact ensures_pure fun _ => nofun
  | true =>
    rw [if_neg (by simp), if_neg (by simp)]
    cases hcheck : Record.checkUser user with
    | error failure => exact ensures_pure fun _ => nofun
    | ok _ =>
      have hnote := (cacheActivity_frame (filed_frame outside).toFrame user moment site).and
        (ensures_run (cacheActivity outside user moment) site)
      refine hnote.bind fun known noted hcall => ?_
      obtain ⟨hkept, hrun⟩ := hcall
      have hrelease := ((filed_frame outside).release noted user).and
        (ensures_run (release user) noted)
      refine hrelease.bind fun _ freed hcall => ?_
      obtain ⟨hstill, hrelease⟩ := hcall
      rw [hrun]
      match known with
      | .error (.refused failure) => exact ensures_pure fun _ => nofun
      | .error .killed => exact ensures_pure fun _ => nofun
      | .ok false => exact ensures_pure fun _ => nofun
      | .ok true =>
        dsimp only
        rw [hrelease]
        refine (change_shows (hstill (hkept hfiled)) hevicts (.away false)).bind
          fun result last hlast => ensures_pure fun pending hpending hok => ?_
        cases result with
        | error failure => cases hok
        | ok record => exact hlast pending hpending ⟨record, rfl⟩

/-- Spreading a turned row settles what the cache shows of its user, and leaves others alone. -/
theorem propagate_settles (outside : Outside) (now : Moment) (record : Record) (site : Site) :
    Ensures (propagate outside now record) site fun _ later =>
      (outside.Evicts record.userId → site.Settles now record later) ∧
        ∀ user, user ≠ record.userId → site.ShowsNoMore user later := by
  refine (noteSwept_rests record.userId now site).bind fun _ noted hnoted => ?_
  refine (cacheGet_ensures outside record.userId noted).bind fun found looked hcall => ?_
  obtain ⟨hfades, hhit⟩ := hcall
  have hlooked : ∀ user, site.ShowsNoMore user looked := fun user =>
    hnoted.showsNoMore.trans hfades.showsNoMore
  have hspread : Ensures (do cacheAndSync outside record; broadcast record; release record.userId)
      looked fun _ later => (outside.Evicts record.userId → site.Settles now record later) ∧
        ∀ user, user ≠ record.userId → site.ShowsNoMore user later := by
    refine (cacheAndSync_shows outside record looked).bind fun _ synced hcall => ?_
    refine (broadcast_cache record synced).bind fun _ shown hcache => ?_
    refine (release_rests record.userId shown).mono fun _ later hlater => ?_
    have hlater : ∀ user, synced.ShowsNoMore user later := fun user =>
      (ShowsNoMore.of_cache hcache).trans hlater.showsNoMore
    exact ⟨fun hevicts => .inl ((hcall.1 hevicts).after (hlater _)), fun user hother =>
      ((hlooked user).trans (hcall.2 user hother)).trans (hlater user)⟩
  split
  · next known =>
    split
    · exact hspread
    · next hahead =>
      refine (release_rests record.userId looked).mono fun _ later hlater => ?_
      refine ⟨fun _ => .inr ⟨known, ?_, by simpa using hahead, ?_⟩, fun user _ =>
        (hlooked user).trans hlater.showsNoMore⟩
      · exact hlooked _ known (hhit known rfl)
      · intro other hother
        have hsame := (hhit known rfl).symm.trans (hlater.showsNoMore other hother)
        exact (Option.some.inj hsame).symm
  · exact hspread

/-- Spreading turned rows of different users settles what the cache shows of each of them. -/
theorem propagateAll_settles (outside : Outside) (now : Moment) {pending : List Record}
    (hnodup : (pending.map Record.userId).Nodup) (site : Site) :
    Ensures (pending.forM (propagate outside now)) site fun _ later =>
      (∀ record ∈ pending, outside.Evicts record.userId → site.Settles now record later) ∧
        ∀ user, user ∉ pending.map Record.userId → site.ShowsNoMore user later := by
  induction pending generalizing site with
  | nil => exact ⟨fun _ => nofun, fun user _ known hknown => hknown⟩
  | cons first rest ih =>
    obtain ⟨hfirst, hrest⟩ : first.userId ∉ rest.map Record.userId ∧
      (rest.map Record.userId).Nodup := List.nodup_cons.mp hnodup
    refine (propagate_settles outside now first site).bind fun _ later hcall => ?_
    obtain ⟨hsettled, hothers⟩ := hcall
    refine (ih hrest later).mono fun _ last hcall => ⟨fun record hmem hevicts => ?_,
      fun user huser => ?_⟩
    · rcases List.mem_cons.mp hmem with rfl | hmem
      · exact (hsettled hevicts).after (hcall.2 _ hfirst)
      · have hother : record.userId ≠ first.userId := fun hsame =>
          hfirst (hsame ▸ List.mem_map_of_mem hmem)
        exact .of_before (hothers _ hother) (hcall.1 record hmem hevicts)
    · rw [List.map_cons, List.mem_cons, not_or] at huser
      exact (hothers user huser.1).trans (hcall.2 user huser.2)

/-- A sweep settles every row that it turns whose user can be removed from the cache. -/
theorem sweep_settles (hkeyed : site.store.Keyed) :
    Ensures (sweep outside) site fun result later => ∀ records, result = .ok records →
      ∀ restored ∈ records, restored ∈ site.turned outside site.clock ∧
        (outside.Evicts restored.userId → site.Settles site.clock restored later) := by
  refine ensures_get_bind ?_
  refine (storeSweep_ensures outside site.clock site).bind fun result later hcall => ?_
  obtain ⟨faded, hfades, ⟨rfl, rfl⟩ | ⟨fault, rfl, -, rfl⟩⟩ := hcall
  · have hnodup := nodup_users_turned outside hkeyed site.clock
    refine (propagateAll_settles outside site.clock hnodup _).bind fun _ spread hspread => ?_
    refine (pruneSlots_rests site.clock spread).bind fun _ last hlast => ?_
    refine ensures_pure fun records hrecords restored hmem => ?_
    cases hrecords
    exact ⟨hmem, fun hevicts => .of_before hfades.showsNoMore
      ((hspread.1 restored hmem hevicts).after hlast.showsNoMore)⟩
  · exact ensures_pure nofun

/-- A sweep settles what the cache shows of every user whom it restores. -/
theorem expire_settles (hkeyed : site.store.Keyed) :
    Ensures (expire outside) site fun result later => ∀ records, result = .ok records →
      ∀ restored ∈ records, restored ∈ site.turned outside site.clock ∧
        (outside.Evicts restored.userId → site.Settles site.clock restored later) := by
  refine ensures_get_bind ?_
  split
  · refine ensures_pure fun records hrecords restored hmem => ?_
    cases hrecords
    cases hmem
  · refine (sweep_settles hkeyed).bind fun result later hlater => ?_
    refine ensures_pure fun records hrecords => ?_
    match result with
    | .ok _ =>
      cases hrecords
      exact hlater records rfl
    | .error (.refused _) => cases hrecords
    | .error .killed => cases hrecords

/-- What another node tells of a user is all that the cache then shows of the user exactly if
the cache takes it, or showed nothing else. -/
theorem receive_shows_iff (outside : Outside) (record : Record) (site : Site) :
    Ensures (receive outside (.updateStatus record)) site fun _ later =>
      (later.ShowsOnly record.userId record ↔
        outside.cacheFault site.calls (.put record) = none ∨
          (site.atCall outside).ShowsOnly record.userId record) := by
  unfold receive
  refine (ensures_run (cachePut outside record) site).bind fun result later hrun => ?_
  simp only [cachePut, StateT.run] at hrun
  split at hrun
  · next failure hfault =>
    cases hrun
    exact ensures_pure (by simp [hfault])
  · next hworks =>
    cases hrun
    exact ensures_pure (iff_of_true (showsOnly_hold (site.atCall outside) record) (.inl hworks))

end Engine

namespace Site

variable {outside : Outside} {site : Site} {user : String}

/-- The change that an operation comes to is all that the cache shows of the user after the
operation, if it succeeds. -/
theorem pending_shows (hfiled : site.Filed) {operation : Operation} {pending : Pending}
    (hpending : operation.pending outside site = some pending)
    (hevicts : outside.Evicts pending.user) :
    Ensures (operation.run outside) site fun result later =>
      result.isOk = true → later.ShowsOnly pending.user pending.next := by
  have hok : ∀ {α : Type} {result : Except Failure α} {answer : α → Answer},
      (result.map answer).isOk = true → ∃ value, result = .ok value := by
    rintro α (failure | value) answer hgiven
    · cases hgiven
    · exact ⟨value, rfl⟩
  cases operation with
  | change user transition =>
    obtain ⟨rfl, -, -⟩ := pendingChange_eq_some hpending
    refine (Engine.change_shows hfiled hevicts transition).bind fun result later hlater => ?_
    exact ensures_pure fun hanswer => hlater pending hpending (hok hanswer)
  | setLastActivity user moment =>
    obtain ⟨rfl, -, -⟩ := pendingChange_eq_some (pendingAway_eq_some hpending)
    refine (Engine.setLastActivity_shows hfiled hevicts moment).bind fun result later hlater => ?_
    exact ensures_pure fun hanswer => hlater pending hpending (hok hanswer).choose_spec
  | _ => cases hpending

/-- Where removals of a user's entry work, a node that has learnt of a newer record of the user
caches that record or nothing: after a change that was committed; after its own sweep has
restored the user, unless the cache shows a record that has not passed, and so no longer agrees
with the row, which is kept; and after another node told of a change exactly if the cache takes
the record or showed nothing else, since a record that the cache refuses does not take the old
entry with it. -/
theorem news_replaces_entry (hfiled : site.Filed) (hevicts : outside.Evicts user) :
    (∀ (operation : Operation) (pending : Pending),
      operation.pending outside site = some pending → pending.user = user →
      Ensures (operation.run outside) site fun result later =>
        result.isOk = true → later.ShowsOnly user pending.next) ∧
    (Ensures (Engine.expire outside) site fun result later => ∀ records, result = .ok records →
      ∀ restored ∈ records, restored.userId = user → later.ShowsOnly user restored ∨
        ∃ known, site.cached? user = some known ∧ later.ShowsOnly user known ∧
          ∀ row, site.store[user]? = some row → ¬known.AgreesWith row) ∧
    ∀ record, record.userId = user →
      Ensures (Engine.receive outside (.updateStatus record)) site fun _ later =>
        (later.ShowsOnly user record ↔ outside.cacheFault site.calls (.put record) = none ∨
          (site.atCall outside).ShowsOnly user record) := by
  refine ⟨?_, ?_, ?_⟩
  · rintro operation pending hpending rfl
    exact pending_shows hfiled hpending hevicts
  · refine (Engine.expire_settles hfiled.keyed).mono fun result later hsettled => ?_
    rintro records hrecords restored hmem rfl
    obtain ⟨hswept, hsettles⟩ := hsettled records hrecords restored hmem
    refine (hsettles hevicts).imp_right fun ⟨known, hknown, hahead, honly⟩ => ?_
    refine ⟨known, hknown, honly, fun row hrow hagrees => ?_⟩
    obtain ⟨user, passed, hpassed, hexpired, rfl⟩ :=
      (Store.mem_expired_iff _ _ _).mp (mem_turned_iff.mp hswept)
    obtain rfl : passed.userId = user := hfiled.keyed user passed hpassed
    obtain rfl : passed = row := Option.some.inj (hpassed.symm.trans hrow)
    rw [hagrees.isExpired_eq, hexpired] at hahead
    cases hahead
  · rintro record rfl
    exact Engine.receive_shows_iff outside record site

/-- The cache refuses to be written; everything else works. -/
def unwritableCache : Outside where
  storeFault _ _ := none
  cacheFault
    | _, .put _ => some .timedOut
    | _, _ => none
  vanishes _ _ := false

/-- A node whose cache shows a user who came online. -/
def greeted : Site := blank.happen .calm (.operation (.change "ada" (.online true)))

/-- The row of this node stands under its user. -/
theorem greeted_filed : greeted.Filed :=
  (blank_inStep.happen (fun _ _ => rfl) _).filed

/-- A user who is cached as online does not want to be disturbed; the cache refuses the record
and shows nothing of the user afterwards that would be older. -/
theorem refused_change_replaces_entry :
    greeted.cached? "ada" = some ⟨"ada", .online, false, 5000, none, none, none⟩ ∧
      Ensures ((Operation.change "ada" .dnd).run unwritableCache) greeted fun _ later =>
        later.ShowsOnly "ada" ⟨"ada", .dnd, true, 5000, none, none, none⟩ := by
  refine ⟨by decide +kernel, ?_⟩
  have hnext : ((Operation.change "ada" .dnd).pending unwritableCache greeted).map Pending.next =
      some ⟨"ada", .dnd, true, 5000, none, none, none⟩ := by decide +kernel
  obtain ⟨pending, hpending, hrecord⟩ := Option.map_eq_some_iff.mp hnext
  have hchange : greeted.pendingChange unwritableCache "ada" .dnd = some pending := hpending
  have huser : pending.user = "ada" := (pendingChange_eq_some hchange).1
  have hevicts : unwritableCache.Evicts "ada" := fun _ => rfl
  obtain ⟨hchanged, -, -⟩ := news_replaces_entry greeted_filed hevicts
  have hok : (((Operation.change "ada" .dnd).run unwritableCache).run greeted).1.isOk =
      true := by decide +kernel
  exact hrecord ▸ hchanged _ pending hpending huser hok

/-- A node whose cache refuses the record that another node tells of goes on showing the old
one, although removals work. -/
theorem refused_update_keeps_entry :
    ¬∀ (outside : Outside) (site : Site) (record : Record) (failure : Failure), site.Filed →
      outside.Evicts record.userId →
      outside.cacheFault site.calls (.put record) = some failure →
      Ensures (Engine.receive outside (.updateStatus record)) site fun _ later =>
        later.ShowsOnly record.userId record := by
  intro hclaim
  have hshows := hclaim unwritableCache greeted ⟨"ada", .dnd, true, 6000, none, none, none⟩
    .timedOut greeted_filed (fun _ => rfl) rfl
  have hkept : ((Engine.receive unwritableCache
      (.updateStatus ⟨"ada", .dnd, true, 6000, none, none, none⟩)).run greeted).2.cached? "ada" =
        some ⟨"ada", .online, false, 5000, none, none, none⟩ := by decide +kernel
  cases hshows _ hkept

end Site

end PresenceTracker
