import PresenceTracker.Proofs.Engine.Announcing
import PresenceTracker.Proofs.Engine.Committing
import PresenceTracker.Proofs.Engine.Habits

/-!
# Nodes that read what they wrote

Where the cache works and reads of the store do not fail, what a node sees of a user is the
cached record, or else the row, or else the default. A transition that succeeds gives the record
that the node sees of the user afterwards, whichever writes of the store fail or are put off: a
record that it keeps is what it had loaded, and a record that it takes is put into the cache. So
a read right afterwards gives the same record. A change is also told to the other nodes, if they
have caches of their own, and a node that has handled what it was told sees the same record too.
-/

namespace PresenceTracker

/-- The cache works and loses nothing, and reads of the store do not fail. Writes of the store
may fail. -/
structure Outside.Serves (outside : Outside) : Prop where
  /-- No call to the cache fails. -/
  cache : outside.CacheWorks
  /-- No entry of the cache vanishes. -/
  stays : ∀ count user, outside.vanishes count user = false
  /-- No read of the store fails. -/
  reads : ∀ count call, call.reads = true → outside.storeFault count call = none

/-- Every call of a read works. -/
def Habits.sound : Habits := ⟨fun _ => false, fun _ => false, .works⟩

namespace Outside

variable {outside : Outside}

theorem Serves.keeps (h : outside.Serves) : outside.Keeps .sound where
  stays := h.stays
  looks count user := by rw [h.cache]; rfl
  puts count record := by rw [h.cache]; rfl
  reads := h.reads

theorem Serves.spares (h : outside.Serves) (user : String) : outside.Spares user :=
  ⟨fun count => h.stays count user, fun count record _ => h.cache count (.put record)⟩

theorem Serves.truthful (h : outside.Serves) : outside.Truthful := by
  intro count user failure hfault
  rw [h.reads count (.get user) rfl] at hfault
  cases hfault

end Outside

/-- The user's record as a node sees it: cached, or else stored, or else the default. -/
def Holding.loaded (held : Holding) (user : String) : Current :=
  match held.current? with
  | some record => ⟨record, true⟩
  | none => .missing user

namespace Holding

variable {outside : Outside} {user : String} {held later : Holding}

/-- A cached record is what is seen. -/
theorem loaded_of_cached {record : Record} (h : held.cached = some record) :
    held.loaded user = ⟨record, true⟩ := by
  rw [loaded, current?, h, Option.some_or]

/-- What loading a user gives is what is seen. -/
theorem Gives.eq_loaded (hserves : outside.Serves) {current : Current}
    (h : held.Gives outside user current) : current = held.loaded user := by
  cases h with
  | cached hcached => rw [loaded_of_cached hcached]
  | stored hmiss hstored => rw [loaded, current?, hmiss hserves.cache, Option.none_or, hstored]
  | missing hmiss habsent =>
    rw [loaded, current?, hmiss hserves.cache, Option.none_or, habsent hserves.truthful]

/-- A transition that succeeds gives the record that is seen afterwards. -/
theorem Turns.loaded_record (hserves : outside.Serves) {transition : Transition}
    {now timeout : Moment} {record : Record}
    (h : held.Turns outside user transition now timeout (.ok record) later) :
    (later.loaded user).record = record := by
  cases h with
  | keeps _ hgives _ => rw [← hgives.eq_loaded hserves]
  | takes _ _ _ htakes =>
    rcases htakes.cached with hheld | ⟨-, hunspared⟩
    · rw [loaded_of_cached hheld]
    · exact absurd (hserves.spares user) hunspared

end Holding

namespace Site

/-- Where every call of a read works, a read gives the cached record, or else the row. -/
theorem gives_sound (site : Site) (user : String) :
    site.gives .sound user = site.current? user := by
  simp only [gives, fetches, sees, Habits.sound, Bool.false_eq_true, if_false, current?]
  cases site.cached? user <;> rfl

/-- The record that a node with tracking enabled sees of a user with a good identifier; otherwise
the default. -/
def seen (site : Site) (user : String) : Record :=
  if site.settings.enabled && (Record.checkUser user).isOk then
    ((site.holding user).loaded user).record
  else .offlineDefault user

theorem seen_of_enabled {site : Site} {user : String} (henabled : site.settings.enabled = true)
    (hvalid : Record.checkUser user = .ok ()) :
    site.seen user = ((site.holding user).loaded user).record := by
  rw [seen, henabled, hvalid]
  rfl

theorem seen_of_disabled {site : Site} (hdisabled : site.settings.enabled = false)
    (user : String) : site.seen user = .offlineDefault user := by
  rw [seen, hdisabled]
  rfl

end Site

/-- A transition comes to a change only where tracking is enabled and the user's identifier passes
the check, and the change makes another record than a stored one. -/
theorem Site.pendingChange_occurs {outside : Outside} {site : Site} {user : String}
    {transition : Transition} {pending : Pending}
    (h : site.pendingChange outside user transition = some pending) :
    site.settings.enabled = true ∧ Record.checkUser user = .ok () ∧
      (pending.current.persisted && pending.next = pending.current.record) = false := by
  unfold pendingChange at h
  split at h
  · cases h
  · next henabled =>
    split at h
    · cases h
    · next hcheck =>
      refine ⟨by simpa using henabled, hcheck, ?_⟩
      unfold pendingStep at h
      split at h
      · cases h
      · split at h
        · cases h
        · cases h
        · split at h
          · cases h
          · next hother =>
            cases h
            exact Bool.eq_false_iff.mpr hother

namespace Engine

open Site

variable {outside : Outside} {site : Site} {user : String}

/-- A read of a user, or the default, gives the record that the node sees. -/
theorem readOrDefault_seen (hserves : outside.Serves) (hkeyed : site.store.Keyed)
    (user : String) :
    Ensures (readOrDefault outside user) site fun record _ => record = site.seen user := by
  cases hsetting : site.settings.enabled with
  | false =>
    have hread : Ensures (read outside user) site fun result _ =>
        result = .ok (.offlineDefault user) := by
      refine ensures_get_bind ?_
      rw [hsetting]
      exact ensures_pure rfl
    refine hread.bind fun result later hresult => ?_
    rw [hresult]
    exact ensures_pure (seen_of_disabled hsetting user).symm
  | true =>
    cases hcheck : Record.checkUser user with
    | error failure =>
      have hread : Ensures (read outside user) site fun result _ => result = .error failure := by
        refine ensures_get_bind ?_
        rw [hsetting, hcheck]
        exact ensures_pure rfl
      refine hread.bind fun result later hresult => ?_
      rw [hresult]
      exact ensures_pure (by rw [seen, hsetting, hcheck]; rfl)
    | ok _ =>
      rw [seen_of_enabled hsetting hcheck, Holding.loaded,
        show (site.holding user).current? = site.gives .sound user from
          (gives_sound site user).symm]
      have hread := read_hasRead hserves.keeps hkeyed hsetting hcheck (.refl .sound site)
      refine hread.bind fun result later hcall => ?_
      obtain ⟨-, hanswers⟩ := hcall
      cases hanswers with
      | given hgives => exact ensures_pure (by rw [hgives])
      | unknown hnone _ _ => exact ensures_pure (by rw [hnone]; rfl)
      | killed _ hkills => cases hkills

/-- Where tracking is disabled, a transition gives the default. -/
theorem change_disabled (hdisabled : site.settings.enabled = false) (outside : Outside)
    (user : String) (transition : Transition) :
    Ensures (change outside user transition) site fun result later =>
      result = .ok (.offlineDefault user) ∧ later = site := by
  refine ensures_get_bind ?_
  rw [hdisabled]
  exact ensures_pure ⟨rfl, rfl⟩

/-- A transition of a user whose identifier fails the check fails, if tracking is enabled. -/
theorem change_invalid (henabled : site.settings.enabled = true) {failure : Failure}
    (hinvalid : Record.checkUser user = .error failure) (outside : Outside)
    (transition : Transition) :
    Ensures (change outside user transition) site fun result later =>
      result = .error failure ∧ later = site := by
  refine ensures_get_bind ?_
  rw [henabled, hinvalid]
  exact ensures_pure ⟨rfl, rfl⟩

/-- A transition of a user whose identifier passes the check is performed if tracking is enabled,
and then ends the operation on the user. -/
theorem change_of_valid (henabled : site.settings.enabled = true)
    (hvalid : Record.checkUser user = .ok ()) {transition : Transition}
    {claim : Except Failure Record → Site → Prop}
    (hperform : Ensures (perform outside user transition) site fun result later =>
      Ensures (release user) later fun _ last => claim (taskResult result) last) :
    Ensures (change outside user transition) site claim := by
  refine ensures_get_bind ?_
  rw [henabled, hvalid]
  exact hperform.bind fun _ _ hperformed => hperformed.bind fun _ _ hlast => ensures_pure hlast

/-- A transition gives the default, or is refused for the user's identifier, or is performed. -/
theorem change_cases {transition : Transition} {claim : Except Failure Record → Site → Prop}
    (hdisabled : site.settings.enabled = false → claim (.ok (.offlineDefault user)) site)
    (hinvalid : ∀ failure, site.settings.enabled = true →
      Record.checkUser user = .error failure → claim (.error failure) site)
    (hvalid : site.settings.enabled = true → Record.checkUser user = .ok () →
      Ensures (change outside user transition) site claim) :
    Ensures (change outside user transition) site claim := by
  cases hsetting : site.settings.enabled with
  | false =>
    refine (change_disabled hsetting outside user transition).mono fun result later hcall => ?_
    obtain ⟨rfl, rfl⟩ := hcall
    exact hdisabled hsetting
  | true =>
    cases hcheck : Record.checkUser user with
    | error failure =>
      refine (change_invalid hsetting hcheck outside transition).mono fun result later hcall => ?_
      obtain ⟨rfl, rfl⟩ := hcall
      exact hinvalid failure hsetting hcheck
    | ok _ => exact hvalid hsetting hcheck

/-- A transition that succeeds gives the record that the node then sees. -/
theorem change_seen (hserves : outside.Serves) (hfiled : site.Filed) (user : String)
    (transition : Transition) :
    Ensures (change outside user transition) site fun result later =>
      ∀ record, result = .ok record → later.seen user = record := by
  refine change_cases (fun hdisabled => of_eq_ok (seen_of_disabled hdisabled user))
    (fun failure _ _ record hrecord => by cases hrecord) fun henabled hvalid => ?_
  refine (change_turns hserves.cache.removesWork hfiled user transition).mono
    fun result later hcall => ?_
  obtain ⟨hworks, hturns, -⟩ := hcall
  rintro record rfl
  rw [seen_of_enabled (hworks.settings ▸ henabled) hvalid]
  exact (hturns henabled).loaded_record hserves

/-- A record that is cached is told to the other nodes, if they have caches of their own. -/
theorem cacheAndSync_tells (outside : Outside) (record : Record) (site : Site) :
    Ensures (cacheAndSync outside record) site fun _ later =>
      site.topic.needsPeers = true → .updateStatus record ∈ later.published := by
  have htell : ∀ later : Site, later.topic = site.topic →
      Ensures (publishToPeers fun _ => .updateStatus record) later fun _ last =>
        site.topic.needsPeers = true → .updateStatus record ∈ last.published := by
    intro later htopic
    refine ensures_get_bind ?_
    split
    · exact ensures_modify fun _ => List.mem_append_right _ List.mem_cons_self
    · next hshared => exact ensures_pure fun hneeds => absurd (htopic ▸ hneeds) hshared
  have hframe := (echoes_frame outside).toFrame
  refine (cachePut_frame hframe record site).bind fun result put hput => ?_
  split
  · exact htell put hput.topic
  · exact (cacheRemove_frame hframe record.userId put).bind fun _ dropped hdropped =>
      htell dropped (hput.trans hdropped).topic

/-- A change that is committed gives its record, and tells it to the other nodes if they have
caches of their own. -/
theorem commit_tells {current : Current} {next : Record}
    (hother : (current.persisted && next = current.record) = false) (outside : Outside)
    (user : String) (site : Site) :
    Ensures (commit outside user current next) site fun result later =>
      ∀ record, result = .ok record → record = next ∧
        (site.topic.needsPeers = true → .updateStatus next ∈ later.published) := by
  unfold commit
  rw [if_neg (Bool.eq_false_iff.mp hother)]
  refine (persist_frame (echoes_frame outside) user current next site).bind
    fun result written hwritten => ?_
  split
  · exact ensures_pure fun _ => nofun
  · refine (cacheAndSync_tells outside next written).bind fun _ synced hsynced => ?_
    rw [hwritten.topic] at hsynced
    split
    · refine (ensures_run (broadcast next) synced).bind fun _ shown hshown => ?_
      cases hshown
      exact ensures_pure (of_eq_ok ⟨rfl, fun hneeds => List.mem_append_left _ (hsynced hneeds)⟩)
    · exact ensures_pure (of_eq_ok ⟨rfl, hsynced⟩)

/-- A transition that comes to a change commits the change to the node that has loaded it, and
then ends the operation on the user. -/
theorem change_of_pending {transition : Transition} {pending : Pending}
    (hpending : site.pendingChange outside user transition = some pending)
    {claim : Except Failure Record → Site → Prop}
    (hcommit : Ensures (commit outside user pending.current pending.next) pending.site
      fun result later => Ensures (release user) later fun _ last =>
        claim (taskResult result) last) :
    Ensures (change outside user transition) site claim := by
  obtain ⟨henabled, hcheck, -⟩ := pendingChange_occurs hpending
  obtain ⟨-, hload, hdecision⟩ := pendingChange_eq_some hpending
  refine change_of_valid henabled hcheck ?_
  refine (ensures_run (load outside user) site).bind fun result loaded hrun => ?_
  cases hload.symm.trans hrun
  refine ensures_get_bind ?_
  rw [hdecision]
  exact hcommit

/-- A transition that comes to a change and succeeds gives the changed record, and tells it to
the other nodes if they have caches of their own. -/
theorem change_tells {transition : Transition} {pending : Pending}
    (hpending : site.pendingChange outside user transition = some pending) :
    Ensures (change outside user transition) site fun result later =>
      ∀ record, result = .ok record → record = pending.next ∧
        (site.topic.needsPeers = true → .updateStatus pending.next ∈ later.published) := by
  have hloaded : pending.site.topic = site.topic := by
    obtain ⟨-, hload, -⟩ := pendingChange_eq_some hpending
    have hframe := load_frame (echoes_frame outside).toFrame user site
    rw [Ensures, hload] at hframe
    exact hframe.topic
  obtain ⟨-, -, hother⟩ := pendingChange_occurs hpending
  refine change_of_pending hpending ?_
  refine (commit_tells hother outside user pending.site).mono fun result later htold => ?_
  rw [hloaded] at htold
  refine (release_rests user later).mono fun _ last hlast => ?_
  rintro record hrecord
  obtain rfl := taskResult_eq_ok_iff.mp hrecord
  exact hlast.published ▸ htold record rfl

/-- A node that has handled a record that it was told of sees this record. -/
theorem receive_seen (hserves : outside.Serves) (henabled : site.settings.enabled = true)
    {record : Record} (hvalid : Record.checkUser record.userId = .ok ()) :
    Ensures (receive outside (.updateStatus record)) site fun _ later =>
      later.seen record.userId = record := by
  refine (cachePut_gives outside record site).bind fun result put hcall => ?_
  obtain ⟨hput, -, hheld, hrefused⟩ := hcall
  cases result with
  | error failure =>
    obtain ⟨-, hunspared⟩ := hrefused failure rfl
    exact absurd (hserves.spares record.userId) hunspared
  | ok =>
    refine ensures_pure ?_
    rw [seen_of_enabled (hput.settings ▸ henabled) hvalid, Holding.loaded_of_cached (hheld rfl)]

end Engine

end PresenceTracker
