import PresenceTracker.Proofs.Engine.Serving
import PresenceTracker.Proofs.Engine.Succeeding
import PresenceTracker.Proofs.Record.Settled

/-!
# Transitions that are repeated

Where nothing fails and the cache loses nothing, what a transition comes to depends on the record
that the node sees, its clock and its settings. A transition that fails or keeps the record moves
nothing, and one that replaces the record leaves the next one to be seen, of which it makes nothing
else. So a transition that is repeated at the same time gives the same result and moves nothing:
no row, no entry of the cache, no slot, and nothing is let out.
-/

namespace PresenceTracker

/-- Nothing fails, and no entry of the cache vanishes. -/
structure Outside.Flawless (outside : Outside) : Prop extends outside.Faultless where
  /-- No entry of the cache vanishes. -/
  stays : ∀ count user, outside.vanishes count user = false

namespace Outside

/-- Where nothing fails and nothing vanishes there is no flaw. -/
theorem calm_flawless : calm.Flawless := ⟨calm_faultless, fun _ _ => rfl⟩

/-- A cache and a store without a flaw serve the node. -/
theorem Flawless.serves {outside : Outside} (h : outside.Flawless) : outside.Serves :=
  ⟨h.cache, h.stays, fun count call _ => h.store count call⟩

end Outside

namespace Site

variable {site later last : Site} {user : String} {transition : Transition}

/-- Since a moment nothing has moved at a site; calls may have been made and look-ups counted. -/
structure Unmoved (site later : Site) : Prop where
  /-- The clock stands still. -/
  clock : later.clock = site.clock
  /-- The settings are the same. -/
  settings : later.settings = site.settings
  /-- The rows are the same. -/
  store : later.store = site.store
  /-- The cache holds the same. -/
  cache : later.cache = site.cache
  /-- The slots are the same. -/
  slots : later.slots = site.slots
  /-- Nothing was published. -/
  published : later.published = site.published
  /-- Nothing was shown. -/
  shown : later.shown = site.shown

namespace Unmoved

/-- A site at which nothing is done has not moved. -/
theorem refl (site : Site) : site.Unmoved site := ⟨rfl, rfl, rfl, rfl, rfl, rfl, rfl⟩

/-- A site that has not moved twice has not moved. -/
theorem trans (h : site.Unmoved later) (h' : later.Unmoved last) : site.Unmoved last where
  clock := h'.clock.trans h.clock
  settings := h'.settings.trans h.settings
  store := h'.store.trans h.store
  cache := h'.cache.trans h.cache
  slots := h'.slots.trans h.slots
  published := h'.published.trans h.published
  shown := h'.shown.trans h.shown

/-- Where no entry vanishes, a site that fades does not move. -/
theorem of_fades {outside : Outside} (hflawless : outside.Flawless)
    (h : site.Fades outside later) : site.Unmoved later where
  clock := h.clock
  settings := h.settings
  store := h.store
  cache := Std.ExtTreeMap.ext_getElem? fun user => h.stays user fun count =>
    hflawless.stays count user
  slots := h.slots
  published := h.published
  shown := h.shown

/-- A site that has not moved holds the same of every user. -/
theorem holding (h : site.Unmoved later) (user : String) :
    later.holding user = site.holding user := by
  simp only [Site.holding, cached?, h.cache, h.store, h.shown, h.published]

end Unmoved

/-- The user is tracked only while the window of the last write is open. -/
def Released (user : String) (site : Site) : Prop :=
  site.skipsWrite user = true ∨ site.slots[user]? = none

/-- A slot that was released stays so at a site that does not move. -/
theorem Released.unmoved (h : site.Released user) (h' : site.Unmoved later) :
    later.Released user := by
  simp only [Released, skipsWrite, h'.slots, h'.clock, h'.settings] at h ⊢
  exact h

/-- What a transition of a user comes to at a site. -/
def outcome (site : Site) (user : String) (transition : Transition) :
    Except Failure (Option Record) :=
  transition.outcome ((site.holding user).loaded user) site.clock site.settings.awayTimeoutMs

/-- The outcome of a transition is the same at a site that has not moved. -/
theorem Unmoved.outcome (h : site.Unmoved later) (user : String) (transition : Transition) :
    later.outcome user transition = site.outcome user transition := by
  simp only [Site.outcome, h.holding, h.clock, h.settings]

/-- How a replacement of a record that comes to some outcome ends: with the failure or the present
record and nothing moved, or with the next record, which is then cached. -/
def Ends (user : String) (present : Record) (outcome : Except Failure (Option Record))
    (site : Site) (result : Except StoreFault Record) (later : Site) : Prop :=
  match outcome with
  | .error failure => result = .error (.refused failure) ∧ site.Unmoved later
  | .ok none => result = .ok present ∧ site.Unmoved later
  | .ok (some next) => result = .ok next ∧ later.cached? user = some next ∧
      later.clock = site.clock ∧ later.settings = site.settings

/-- A transition has nothing to do at a site, and gives a certain result. -/
inductive Spent (user : String) (transition : Transition) (site : Site) :
    Except Failure Record → Prop where
  /-- Tracking is disabled. -/
  | disabled (h : site.settings.enabled = false) :
      Spent user transition site (.ok (.offlineDefault user))
  /-- The user's identifier fails the check. -/
  | invalid {failure : Failure} (henabled : site.settings.enabled = true)
      (h : Record.checkUser user = .error failure) : Spent user transition site (.error failure)
  /-- The transition fails. -/
  | refused {failure : Failure} (henabled : site.settings.enabled = true)
      (hvalid : Record.checkUser user = .ok ()) (hreleased : site.Released user)
      (h : site.outcome user transition = .error failure) :
      Spent user transition site (.error failure)
  /-- The transition keeps the record that the node sees. -/
  | kept {record : Record} (henabled : site.settings.enabled = true)
      (hvalid : Record.checkUser user = .ok ()) (hreleased : site.Released user)
      (h : site.outcome user transition = .ok none)
      (hrecord : ((site.holding user).loaded user).record = record) :
      Spent user transition site (.ok record)

/-- Where nothing has moved before, what ends ends in the same way. -/
theorem Ends.after {present : Record} {outcome : Except Failure (Option Record)}
    {result : Except StoreFault Record} (h : later.Ends user present outcome result last)
    (hunmoved : site.Unmoved later) : site.Ends user present outcome result last := by
  match outcome with
  | .error failure => exact ⟨h.1, hunmoved.trans h.2⟩
  | .ok none => exact ⟨h.1, hunmoved.trans h.2⟩
  | .ok (some next) =>
    obtain ⟨hresult, hcached, hclock, hsettings⟩ := h
    exact ⟨hresult, hcached, hclock.trans hunmoved.clock, hsettings.trans hunmoved.settings⟩

end Site

namespace Engine

open Site

variable {outside : Outside} {site : Site} {user : String}

/-- A user is loaded as the node sees the user. -/
theorem load_loads (hflawless : outside.Flawless) (user : String) (site : Site) :
    Ensures (load outside user) site fun result later =>
      result = .ok ((site.holding user).loaded user) ∧ site.Unmoved later := by
  have hkeeps := hflawless.serves.keeps
  refine (cacheGet_sees hkeeps user site).bind fun found looked hcall => ?_
  obtain ⟨hlooked, hsees⟩ := hcall
  have hfinds : ∀ record, found = .ok (some record) ↔ (site.holding user).cached = some record :=
    hsees
  split
  · next record =>
    have hcached := (hfinds record).mp rfl
    exact ensures_pure ⟨by rw [Holding.loaded_of_cached hcached], .of_fades hflawless hlooked⟩
  · next hmiss =>
    have hempty : (site.holding user).cached = none :=
      Option.eq_none_iff_forall_ne_some.mpr fun record hcached =>
        hmiss record ((hfinds record).mpr hcached)
    refine (storeRead_keeps hkeeps rfl (fun store => store.find user) looked).bind
      fun result later hcall => ?_
    obtain ⟨hfades, hresult⟩ := hcall
    have hlater : site.Unmoved later :=
      (Unmoved.of_fades hflawless hlooked).trans (.of_fades hflawless hfades)
    have hread : result = (site.store.find user).mapError .refused := hlooked.store ▸ hresult
    rw [Holding.loaded, Holding.current?, hempty, Option.none_or]
    cases hrow : site.store[user]? with
    | some row =>
      rw [(Store.find_eq_ok_iff _ _ _).mpr hrow] at hread
      subst hread
      exact ensures_pure ⟨by rw [holding, hrow], hlater⟩
    | none =>
      rw [Store.find, hrow] at hread
      subst hread
      exact ensures_pure ⟨by rw [holding, hrow], hlater⟩

/-- The end of an operation releases the user. -/
theorem release_releases (user : String) (site : Site) :
    Ensures (release user) site fun _ later => later.Released user := by
  refine ensures_modify ?_
  split
  · next hopen => exact .inl hopen
  · exact .inr (by rw [Table.get?_erase, if_pos rfl])

/-- A user who has been released is released once more without a change. -/
theorem release_released (h : site.Released user) :
    Ensures (release user) site fun _ later => later = site := by
  refine ensures_modify ?_
  split
  · rfl
  · next hclosed =>
    have hslot : site.slots[user]? = none := h.resolve_left hclosed
    have hslots : site.slots.erase user = site.slots := by
      refine Std.ExtTreeMap.ext_getElem? fun other => ?_
      rw [Table.get?_erase]
      split
      · next hsame => rw [← hsame, hslot]
      · rfl
    rw [hslots]

/-- Replacing the present record of a user ends as its outcome says. -/
theorem commit_ends (hflawless : outside.Flawless) {next : Record} (hnext : next.userId = user)
    (current : Current) (site : Site) :
    Ensures (commit outside user current next) site
      (site.Ends user current.record (current.replacement next)) := by
  unfold commit Current.replacement
  split
  · next hsame =>
    obtain ⟨-, rfl⟩ : current.persisted = true ∧ next = current.record := by simpa using hsame
    exact ensures_pure ⟨rfl, .refl site⟩
  · have hpersist := (persist_ends hflawless.store current next site).and
      (persist_writes hnext current site)
    refine hpersist.bind fun result written hcall => ?_
    obtain ⟨⟨hwrites, hfails⟩, hworks, -, -⟩ := hcall
    have hreplaced : Ensures (do
          cacheAndSync outside next
          if current.record.differsVisibly next then broadcast next
          return Except.ok next) written (site.Ends user current.record (.ok (some next))) := by
      have hremoves := hflawless.cache.removesWork
      refine (cacheAndSync_gives hremoves next written).bind fun _ synced hcall => ?_
      rw [hnext] at hcall
      obtain ⟨hsync, -, hcached⟩ := hcall
      have hheld : synced.cached? user = some next := hcached.resolve_right fun hlost =>
        hlost.2 (hflawless.serves.spares user)
      have hlater := hworks.trans hsync
      split
      · refine (ensures_run (broadcast next) synced).bind fun _ shown hshown => ?_
        cases hshown
        exact ensures_pure ⟨rfl, hheld, hlater.clock, hlater.settings⟩
      · exact ensures_pure ⟨rfl, hheld, hlater.clock, hlater.settings⟩
    cases hfull : current.needsFullSave next with
    | true =>
      rw [if_pos rfl]
      cases hcheck : next.validate with
      | error failure =>
        obtain ⟨rfl, rfl⟩ := hfails failure hfull hcheck
        exact ensures_pure ⟨rfl, .refl _⟩
      | ok _ =>
        obtain rfl := hwrites (.inr hcheck)
        exact hreplaced
    | false =>
      rw [if_neg Bool.false_ne_true]
      obtain rfl := hwrites (.inl hfull)
      exact hreplaced

/-- Loading, deciding and committing end as the outcome of the transition says. -/
theorem perform_ends (hflawless : outside.Flawless) (hfiled : site.Filed) (user : String)
    (transition : Transition) :
    Ensures (perform outside user transition) site
      (site.Ends user ((site.holding user).loaded user).record (site.outcome user transition)) := by
  have hload := (load_loads hflawless user site).and (load_gives hfiled user)
  refine hload.bind fun result loaded hcall => ?_
  obtain ⟨⟨rfl, hunmoved⟩, -, hgives⟩ := hcall
  have huser := (hgives _ rfl).2
  refine ensures_get_bind ?_
  rw [hunmoved.clock, hunmoved.settings, outcome, Transition.outcome]
  cases hdecision : transition.decision ((site.holding user).loaded user) site.clock
      site.settings.awayTimeoutMs with
  | error failure => exact ensures_pure ⟨rfl, hunmoved⟩
  | ok decision =>
    cases decision with
    | keep => exact ensures_pure ⟨rfl, hunmoved⟩
    | apply next =>
      have hnext := (Transition.userId_of_apply hdecision).trans huser
      exact (commit_ends hflawless hnext _ loaded).mono fun _ _ hends => hends.after hunmoved

/-- Once a transition has run it has nothing more to do, and would give the same result. -/
theorem change_spends (hflawless : outside.Flawless) (hfiled : site.Filed) (user : String)
    (transition : Transition) :
    Ensures (change outside user transition) site fun result later =>
      later.Spent user transition result := by
  refine change_cases .disabled (fun _ => .invalid) fun henabled hvalid => ?_
  refine change_of_valid henabled hvalid ?_
  refine (perform_ends hflawless hfiled user transition).mono fun result performed hends => ?_
  refine ((release_releases user performed).and (release_tracks user performed)).mono
    fun _ last hcall => ?_
  obtain ⟨hreleased, slots, rfl⟩ := hcall
  cases houtcome : site.outcome user transition with
  | error failure =>
    rw [houtcome] at hends
    obtain ⟨rfl, hunmoved⟩ := hends
    exact .refused (hunmoved.settings ▸ henabled) hvalid hreleased
      ((hunmoved.outcome user transition).trans houtcome)
  | ok replaced =>
    cases replaced with
    | none =>
      rw [houtcome] at hends
      obtain ⟨rfl, hunmoved⟩ := hends
      refine .kept (hunmoved.settings ▸ henabled) hvalid hreleased
        ((hunmoved.outcome user transition).trans houtcome) ?_
      exact congrArg (fun held : Holding => (held.loaded user).record) (hunmoved.holding user)
    | some next =>
      rw [houtcome] at hends
      obtain ⟨rfl, hcached, hclock, hsettings⟩ := hends
      have hloaded : (performed.holding user).loaded user = ⟨next, true⟩ :=
        Holding.loaded_of_cached hcached
      refine .kept (hsettings ▸ henabled) hvalid hreleased ?_ (congrArg _ hloaded)
      show performed.outcome user transition = .ok none
      rw [outcome, hloaded, hclock, hsettings]
      exact Transition.outcome_again houtcome

/-- A transition that has nothing to do gives its result and moves nothing. -/
theorem change_spent (hflawless : outside.Flawless) (hfiled : site.Filed)
    {transition : Transition} {result : Except Failure Record}
    (h : site.Spent user transition result) :
    Ensures (change outside user transition) site fun again later =>
      again = result ∧ site.Unmoved later := by
  have hrelease : ∀ later, site.Released user → site.Unmoved later →
      Ensures (release user) later fun _ last => site.Unmoved last := by
    intro later hreleased hunmoved
    refine (release_released (hreleased.unmoved hunmoved)).mono fun _ last hlast => ?_
    rw [hlast]
    exact hunmoved
  cases h with
  | disabled hdisabled =>
    refine (change_disabled hdisabled outside user transition).mono fun again later hcall => ?_
    exact ⟨hcall.1, hcall.2 ▸ .refl site⟩
  | invalid henabled hinvalid =>
    refine (change_invalid henabled hinvalid outside transition).mono fun again later hcall => ?_
    exact ⟨hcall.1, hcall.2 ▸ .refl site⟩
  | refused henabled hvalid hreleased houtcome =>
    refine change_of_valid henabled hvalid ?_
    refine (perform_ends hflawless hfiled user transition).mono fun again performed hends => ?_
    rw [houtcome] at hends
    obtain ⟨rfl, hunmoved⟩ := hends
    exact (hrelease performed hreleased hunmoved).mono fun _ _ hlast => ⟨rfl, hlast⟩
  | kept henabled hvalid hreleased houtcome hrecord =>
    refine change_of_valid henabled hvalid ?_
    refine (perform_ends hflawless hfiled user transition).mono fun again performed hends => ?_
    rw [houtcome] at hends
    obtain ⟨rfl, hunmoved⟩ := hends
    exact (hrelease performed hreleased hunmoved).mono fun _ _ hlast =>
      ⟨congrArg Except.ok hrecord, hlast⟩

end Engine

end PresenceTracker
