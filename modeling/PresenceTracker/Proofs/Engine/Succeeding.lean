import PresenceTracker.Engine.Operations
import PresenceTracker.Proofs.Engine.Calls
import PresenceTracker.Proofs.Record.Validity

/-!
# Transitions that succeed

A transition fails because of its rule, of the check before a full write, or of the store. A
transition that is applied to every record does not fail by its rule, and if the record it
starts from passes the check then so does the one it makes. So where the store works, such a
transition succeeds unless the cache shows a record that fails the check. A cache that fails
does no harm.
-/

namespace PresenceTracker.Engine

open Site

variable {outside : Outside} {site : Site} {user : String}

/-- A user is loaded if the store works, and the loaded record passes the check if those of the
cache and the store do. -/
theorem load_succeeds (hstore : ∀ count call, outside.storeFault count call = none)
    (huser : Record.checkUser user = .ok ())
    (hcached : ∀ record, site.cached? user = some record → record.validate = .ok ())
    (hrow : ∀ row : Record, site.store[user]? = some row → row.validate = .ok ()) :
    Ensures (load outside user) site fun result _ =>
      ∃ current, result = .ok current ∧ current.record.validate = .ok () := by
  have hlook := cacheGet_ensures outside user site
  refine hlook.bind fun found looked hcall => ?_
  obtain ⟨hfades, hfound⟩ := hcall
  split
  · next record =>
    have hbefore := hfades.toRests.cached? (hfound record rfl)
    exact ensures_pure ⟨⟨record, true⟩, rfl, hcached record hbefore⟩
  · have hread := storeRead_ensures outside (.get user) (fun store => store.find user) looked
    refine hread.bind fun result later hcall => ?_
    obtain ⟨-, hresult | ⟨fault, -, hfault⟩⟩ := hcall
    · rw [hfades.store, Store.find] at hresult
      cases hold : site.store[user]? with
      | some row =>
        rw [hold] at hresult
        subst hresult
        exact ensures_pure ⟨⟨row, true⟩, rfl, hrow row hold⟩
      | none =>
        rw [hold] at hresult
        subst hresult
        exact ensures_pure ⟨.missing user, rfl, huser⟩
    · rw [hstore] at hfault
      cases hfault

/-- Where the store works, a record is written unless it needs a full write and fails the check;
then nothing is written. -/
theorem persist_ends (hstore : ∀ count call, outside.storeFault count call = none)
    (current : Current) (next : Record) (site : Site) :
    Ensures (persist outside user current next) site fun result later =>
      (current.needsFullSave next = false ∨ next.validate = .ok () → result = .ok ()) ∧
        ∀ failure, current.needsFullSave next = true → next.validate = .error failure →
          result = .error (.refused failure) ∧ later = site := by
  unfold persist
  split
  · next hfull =>
    split
    · next failure hfails =>
      refine ensures_pure ⟨fun hwrites => ?_, fun other _ hother => ?_⟩
      · rcases hwrites with hpartial | hvalid
        · rw [hfull] at hpartial
          cases hpartial
        · rw [hfails] at hvalid
          cases hvalid
      · cases hfails.symm.trans hother
        exact ⟨rfl, rfl⟩
    · next hvalid =>
      have hwrite : Ensures (storeSave outside next) site _ :=
        storeCall_ensures outside (.save next) _ site
      refine hwrite.bind fun result later hcall => ?_
      obtain ⟨faded, -, ⟨rfl, -⟩ | ⟨fault, -, hfault, -⟩⟩ := hcall
      · rw [Store.save, hvalid]
        exact ⟨fun _ => rfl, fun _ _ => nofun⟩
      · rw [hstore] at hfault
        cases hfault
  · next hpartial =>
    refine ensures_get_bind ?_
    split
    · exact ensures_pure ⟨fun _ => rfl, fun _ hfull => absurd hfull hpartial⟩
    · have htouch := storeTouch_ensures outside next.userId next.lastActivity site
      refine htouch.bind fun result later hcall => ?_
      obtain ⟨faded, -, ⟨rfl, -⟩ | ⟨fault, -, hfault, -⟩⟩ := hcall
      · exact ⟨fun _ => rfl, fun _ hfull => absurd hfull hpartial⟩
      · rw [hstore] at hfault
        cases hfault

/-- A record that passes the check is written if the store works. -/
theorem persist_succeeds (hstore : ∀ count call, outside.storeFault count call = none)
    {next : Record} (hnext : next.validate = .ok ()) (current : Current) (site : Site) :
    Ensures (persist outside user current next) site fun result _ => result = .ok () :=
  (persist_ends hstore current next site).mono fun _ _ hends => hends.1 (.inr hnext)

/-- A record that passes the check takes the place of the current one if the store works. -/
theorem commit_succeeds (hstore : ∀ count call, outside.storeFault count call = none)
    {next : Record} (hnext : next.validate = .ok ()) (current : Current) (site : Site) :
    Ensures (commit outside user current next) site fun result _ => result = .ok next := by
  unfold commit
  split
  · exact ensures_pure rfl
  · refine (persist_succeeds hstore hnext current site).bind fun result later hresult => ?_
    subst hresult
    refine (ensures_run (cacheAndSync outside next) later).bind fun _ synced _ => ?_
    split
    · exact (ensures_run (broadcast next) synced).bind fun _ _ _ => ensures_pure rfl
    · exact ensures_pure rfl

/-- Where the store works and tracking is enabled, a transition that is applied to every record
succeeds for a user with a good identifier, if the records of the user pass the check. -/
theorem change_succeeds (hstore : ∀ count call, outside.storeFault count call = none)
    (henabled : site.settings.enabled = true) {transition : Transition}
    (happlied : transition.isUnconditional = true) (huser : Record.checkUser user = .ok ())
    (hcached : ∀ record, site.cached? user = some record → record.validate = .ok ())
    (hrow : ∀ row : Record, site.store[user]? = some row → row.validate = .ok ()) :
    Ensures (change outside user transition) site fun result _ =>
      ∃ record, result = .ok record ∧ record.validate = .ok () := by
  have hperform : Ensures (perform outside user transition) site fun result _ =>
      ∃ record, result = .ok record ∧ record.validate = .ok () := by
    refine (load_succeeds hstore huser hcached hrow).bind fun result loaded hresult => ?_
    obtain ⟨current, rfl, hcurrent⟩ := hresult
    refine ensures_get_bind ?_
    obtain ⟨next, hdecision, hnext⟩ := Transition.unconditional_applies happlied hcurrent
      loaded.clock loaded.settings.awayTimeoutMs
    rw [hdecision]
    exact (commit_succeeds hstore hnext current loaded).mono fun result _ hok =>
      ⟨next, hok, hnext⟩
  refine ensures_get_bind ?_
  rw [if_neg (by simp [henabled]), huser]
  refine hperform.bind fun result later hresult => ?_
  obtain ⟨record, rfl, hrecord⟩ := hresult
  exact (release_rests user later).bind fun _ _ _ => ensures_pure ⟨record, rfl, hrecord⟩

end PresenceTracker.Engine
