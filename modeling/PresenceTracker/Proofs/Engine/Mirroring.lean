import PresenceTracker.Proofs.Engine.Mirror

/-!
# The operations on a node and its mirror

What each function of the engine does to a node, from a write to the store up to a whole
transition, read, removal or sweep, is what the mirror does, and what it gives back is the same
but for the last activities. Only the rule that finds a user idle is left out, because it looks
at the last activity.
-/

namespace PresenceTracker

variable {outside : Outside} {past : List PresenceEvent} {mirror : Mirror} {site : Site}

namespace Engine

open Site

/-- A row that passes the check is written. -/
theorem storeSave_mirrors (hbears : outside.Bears) (h : site.Mirrors outside past mirror)
    {record : Record} (hvalid : record.validate = .ok ()) :
    Ensures (storeSave outside record) site fun result later => result = .ok () ∧
      later.Mirrors outside past
        (mirror.withRows (mirror.rows.insert record.userId record.timeless)) := by
  have hsave : site.store.save record = .ok (site.store.insert record.userId record) := by
    rw [Store.save, hvalid]
    rfl
  refine (storeCall_ensures outside (.save record) _ site).mono fun result later hcall => ?_
  obtain ⟨faded, hfades, ⟨hresult, hlater⟩ | ⟨fault, -, hfault, -⟩⟩ := hcall
  · simp only [hsave] at hresult hlater
    refine ⟨hresult, ?_⟩
    rw [hlater, ← h.rows, ← Store.timeless_save hsave]
    refine (h.fades hfades).withStore (h.keyed.save hsave) ?_
    exact h.active.save hsave (Record.lastActivity_of_validate hvalid)
  · rw [hbears.store] at hfault
    cases hfault

/-- A write of the activity changes no rows but for the last activity. -/
theorem storeTouch_mirrors (hbears : outside.Bears) (h : site.Mirrors outside past mirror)
    (user : String) {moment : Moment} (hactive : 0 ≤ moment) :
    Ensures (storeTouch outside user moment) site fun result later => result = .ok () ∧
      later.Mirrors outside past mirror := by
  refine (storeTouch_ensures outside user moment site).mono fun result later hcall => ?_
  obtain ⟨faded, hfades, ⟨rfl, rfl⟩ | ⟨fault, -, hfault, -⟩⟩ := hcall
  · have htouched := (h.fades hfades).withStore (h.keyed.touch user moment)
      (h.active.touch user moment fun _ _ => hactive)
    rw [Store.timeless_touch, h.rows, Mirror.withRows] at htouched
    exact ⟨rfl, htouched⟩
  · rw [hbears.store] at hfault
    cases hfault

/-- What is persisted becomes the mirror's row, unless it does not pass the check. -/
theorem persist_mirrors (hbears : outside.Bears) (h : site.Mirrors outside past mirror)
    {user : String} {current : Current} {next : Record}
    (hcurrent : current.timeless = mirror.current user)
    (huser : current.record.userId = user) (hnext : next.userId = user)
    (hactive : 0 ≤ next.lastActivity) :
    Ensures (persist outside user current next) site fun result later =>
      match if current.needsFullSave next then next.validate else .ok () with
      | .error failure => result = .error (.refused failure) ∧ later = site
      | .ok () => result = .ok () ∧
          later.Mirrors outside past (mirror.withRows (mirror.rows.insert user next.timeless)) := by
  have hnote : ∀ later,
      later.Mirrors outside past (mirror.withRows (mirror.rows.insert user next.timeless)) →
      Ensures (do notePersisted user; return Except.ok ()) later
        fun (result : Except StoreFault Unit) last => result = .ok () ∧
          last.Mirrors outside past (mirror.withRows (mirror.rows.insert user next.timeless)) :=
    fun later hlater => (notePersisted_tracks user later).bind fun _ _ htracks =>
      ensures_pure ⟨rfl, hlater.tracks htracks⟩
  unfold persist
  by_cases hfull : current.needsFullSave next = true
  · rw [if_pos hfull, if_pos hfull]
    cases hvalidate : next.validate with
    | error failure => exact ensures_pure ⟨rfl, rfl⟩
    | ok _ =>
      refine (storeSave_mirrors hbears h hvalidate).bind fun result later hcall => ?_
      obtain ⟨rfl, hlater⟩ := hcall
      exact hnote later (hnext ▸ hlater)
  · rw [if_neg hfull, if_neg hfull]
    -- What needs no full write is the row already, but for the last activity.
    have hsame : mirror.withRows (mirror.rows.insert user next.timeless) = mirror := by
      obtain ⟨hpersisted, hagrees⟩ := Current.agreesWith_of_not_needsFullSave
        (hnext.trans huser.symm) (Bool.eq_false_iff.mpr hfull)
      have hrow := Mirror.row_of_current hcurrent hpersisted
      rw [← Record.agreesWith_iff_timeless.mp hagrees] at hrow
      rw [Mirror.withRows, Mirror.insert_same hrow]
    rw [hsame] at hnote ⊢
    refine ensures_get_bind ?_
    split
    · exact ensures_pure ⟨rfl, h⟩
    · refine (storeTouch_mirrors hbears h next.userId hactive).bind fun result later hcall => ?_
      obtain ⟨rfl, hlater⟩ := hcall
      exact hnote later hlater

/-- Committing a record puts it in the place of the mirror's. -/
theorem commit_mirrors (hbears : outside.Bears) (h : site.Mirrors outside past mirror)
    (hsettled : mirror.Settled) {user : String} {current : Current} {next : Record}
    (hcurrent : current.timeless = mirror.current user) (huser : current.record.userId = user)
    (hnext : next.userId = user) (hactive : 0 ≤ next.lastActivity) :
    Ensures (commit outside user current next) site fun result later =>
      (taskResult result).map Record.timeless =
          (mirror.replace (mirror.current user) next.timeless).1 ∧
        later.Mirrors outside past (mirror.replace (mirror.current user) next.timeless).2 := by
  rw [← hcurrent, Mirror.replace, Record.validate_timeless hactive,
    show current.timeless.needsFullSave next.timeless = current.needsFullSave next from rfl,
    show current.timeless.record.differsVisibly next.timeless =
      current.record.differsVisibly next from rfl,
    show next.timeless.userId = user from hnext]
  unfold commit
  split
  · next hsame =>
    -- The record stays as it is, which needs no full write and is no visible change.
    simp only [Bool.and_eq_true, decide_eq_true_eq] at hsame
    obtain ⟨hpersisted, rfl⟩ := hsame
    have hpartial : current.needsFullSave current.record = false := by
      simp [Current.needsFullSave, hpersisted]
    have hvisible : current.record.differsVisibly current.record = false := by
      simp [Record.differsVisibly]
    simp only [hpartial, hvisible, Bool.false_eq_true, if_false,
      Mirror.settle_same hsettled (Mirror.row_of_current hcurrent hpersisted)]
    exact ensures_pure ⟨rfl, h⟩
  · refine (persist_mirrors hbears h hcurrent huser hnext hactive).bind
      fun result written hcall => ?_
    cases hchecked : if current.needsFullSave next then next.validate else Except.ok () with
    | error failure =>
      rw [hchecked] at hcall
      obtain ⟨rfl, rfl⟩ := hcall
      exact ensures_pure ⟨rfl, h⟩
    | ok _ =>
      rw [hchecked] at hcall
      obtain ⟨rfl, hwritten⟩ := hcall
      refine (cacheAndSync_mirrors hbears hwritten hactive).bind fun _ synced hsynced => ?_
      have hsettles := Mirror.see_settles hsettled next.timeless
      rw [show next.timeless.userId = user from hnext] at hsettles
      simp only [← hsettles]
      split
      · exact (broadcast_mirrors hsynced next).bind fun _ _ hshown => ensures_pure ⟨rfl, hshown⟩
      · rw [Mirror.tell_nil]
        exact ensures_pure ⟨rfl, hsynced⟩

/-- Performing a transition does what it does to the mirror, unless it is the one that looks at
the last activity. -/
theorem perform_mirrors (hbears : outside.Bears) (h : site.Mirrors outside past mirror)
    (hsettled : mirror.Settled) (hclock : 0 ≤ mirror.clock) (user : String)
    {transition : Transition} (hrule : transition ≠ .away false) :
    Ensures (perform outside user transition) site fun result later =>
      (taskResult result).map Record.timeless = (mirror.perform user transition).1 ∧
        later.Mirrors outside past (mirror.perform user transition).2 := by
  unfold Mirror.perform
  refine (load_mirrors hbears h (hsettled user)).bind fun result loaded hcall => ?_
  obtain ⟨hloaded, current, rfl, hcurrent, huser, hactive⟩ := hcall
  refine ensures_get_bind ?_
  rw [hloaded.clock, hloaded.settings]
  have hsame : (transition.decision (mirror.current user) mirror.clock
      mirror.settings.awayTimeoutMs).map Decision.timeless =
        (transition.decision current mirror.clock mirror.settings.awayTimeoutMs).map
          Decision.timeless := by
    rw [← hcurrent]
    exact Transition.decision_timeless hrule
  rw [hsame]
  cases hdecision : transition.decision current mirror.clock mirror.settings.awayTimeoutMs with
  | error failure => exact ensures_pure ⟨rfl, hloaded⟩
  | ok decision =>
    cases decision with
    | keep => exact ensures_pure ⟨congrArg Except.ok (congrArg Current.record hcurrent), hloaded⟩
    | apply next =>
      have hnext := (Transition.userId_of_apply hdecision).trans huser
      have hlively := Transition.lastActivity_of_apply hclock hactive hdecision
      exact commit_mirrors hbears hloaded hsettled hcurrent huser hnext hlively

/-- A transition does what it does to the mirror, unless it is the one that looks at the last
activity. -/
theorem change_mirrors (hbears : outside.Bears) (h : site.Mirrors outside past mirror)
    (hsettled : mirror.Settled) (henabled : mirror.settings.enabled = true)
    (hclock : 0 ≤ mirror.clock) (user : String) {transition : Transition}
    (hrule : transition ≠ .away false) :
    Ensures (change outside user transition) site fun result later =>
      result.map Record.timeless = (mirror.change user transition).1 ∧
        later.Mirrors outside past (mirror.change user transition).2 := by
  unfold Mirror.change
  refine ensures_get_bind ?_
  rw [h.settings, henabled, if_neg (by simp)]
  cases hcheck : Record.checkUser user with
  | error failure => exact ensures_pure ⟨rfl, h⟩
  | ok _ =>
    refine (perform_mirrors hbears h hsettled hclock user hrule).bind fun result later hcall => ?_
    obtain ⟨hresult, hlater⟩ := hcall
    exact (release_tracks user later).bind fun _ _ htracks =>
      ensures_pure ⟨hresult, hlater.tracks htracks⟩

/-- A row that is cached after it was read is what the cache shows anyway, if anything. -/
theorem backfill_mirrors (hbears : outside.Bears) (h : site.Mirrors outside past mirror)
    {record : Record} (hview : mirror.view record.userId = some record.timeless)
    (hactive : 0 ≤ record.lastActivity) :
    Ensures (backfill outside record) site fun _ later => later.Mirrors outside past mirror := by
  have hrelease : ∀ later, later.Mirrors outside past mirror →
      Ensures (release record.userId) later fun _ last => last.Mirrors outside past mirror :=
    fun later hlater => (release_tracks record.userId later).mono fun _ _ htracks =>
      hlater.tracks htracks
  have hsame : mirror.see record.timeless = mirror := Mirror.see_eq hview
  refine (cacheGet_mirrors h record.userId).bind fun found looked hcall => ?_
  split
  · exact hrelease looked hcall.1
  · refine (cachePut_mirrors hbears hcall.1 hactive).bind fun result put hcall => ?_
    rw [hsame] at hcall
    refine hrelease put ?_
    cases result with
    | ok _ => exact hcall.1 rfl
    | error failure => exact hcall.2 failure rfl

/-- A read gives the mirror's row. -/
theorem read_mirrors (hbears : outside.Bears) (h : site.Mirrors outside past mirror)
    (hsettled : mirror.Settled) (henabled : mirror.settings.enabled = true) (user : String) :
    Ensures (read outside user) site fun result later =>
      result.map Record.timeless = mirror.read user ∧ later.Mirrors outside past mirror := by
  unfold Mirror.read
  refine ensures_get_bind ?_
  rw [h.settings, henabled, if_neg (by simp)]
  cases hcheck : Record.checkUser user with
  | error failure => exact ensures_pure ⟨rfl, h⟩
  | ok _ =>
    refine (cacheGet_mirrors h user).bind fun found looked hcall => ?_
    obtain ⟨hlooked, hfound⟩ := hcall
    split
    · next record =>
      have hseen := (hfound record rfl).1
      rw [hsettled] at hseen
      exact ensures_pure ⟨((Store.find_eq_ok_iff mirror.rows user _).mpr hseen).symm, hlooked⟩
    · refine (storeGet_mirrors hbears hlooked user).bind fun result later hcall => ?_
      obtain ⟨hlater, ⟨row, rfl, hrow, huser, hactive⟩ | ⟨rfl, hrow⟩⟩ := hcall
      · have hview : mirror.view row.userId = some row.timeless := by
          rw [hsettled, huser, hrow]
        refine (backfill_mirrors hbears hlater hview hactive).bind fun _ last hlast => ?_
        exact ensures_pure ⟨((Store.find_eq_ok_iff mirror.rows user _).mpr hrow).symm, hlast⟩
      · refine ensures_pure ⟨?_, hlater⟩
        rw [Store.find, hrow]
        rfl

/-- A read gives the mirror's row, or the default record where there is none. -/
theorem readOrDefault_mirrors (hbears : outside.Bears) (h : site.Mirrors outside past mirror)
    (hsettled : mirror.Settled) (henabled : mirror.settings.enabled = true) (user : String) :
    Ensures (readOrDefault outside user) site fun record later =>
      record.timeless = (mirror.read user).toOption.getD (.offlineDefault user) ∧
        later.Mirrors outside past mirror := by
  refine (read_mirrors hbears h hsettled henabled user).bind fun result later hcall => ?_
  obtain ⟨hresult, hlater⟩ := hcall
  rw [← hresult]
  cases result with
  | ok record => exact ensures_pure ⟨rfl, hlater⟩
  | error failure => exact ensures_pure ⟨rfl, hlater⟩

end Engine

/-- What a read of several users has found are rows of the mirror, and a row that it has not
found is still to be found for a pending user. -/
structure Mirror.Finds (mirror : Mirror) (users : List String) (pending : String → Prop)
    (found : Table Record) : Prop where
  /-- What was found is the mirror's row. -/
  sound : ∀ (user : String) (record : Record),
    found[user]? = some record → mirror.rows[user]? = some record.timeless
  /-- A user who has a row and was not found is pending. -/
  complete : ∀ user ∈ users, found[user]? = none → mirror.rows[user]? ≠ none → pending user

namespace Mirror.Finds

variable {users : List String} {pending fewer : String → Prop} {found : Table Record}

/-- A user without a row need not be pending. -/
theorem mono (h : mirror.Finds users pending found)
    (himp : ∀ user, found[user]? = none → mirror.rows[user]? ≠ none → pending user → fewer user) :
    mirror.Finds users fewer found :=
  ⟨h.sound, fun user hmem hnone hrow => himp user hnone hrow (h.complete user hmem hnone hrow)⟩

/-- A user who is found need not be pending any longer. -/
theorem insert (h : mirror.Finds users pending found) {user : String} {record : Record}
    (hrow : mirror.rows[user]? = some record.timeless)
    (himp : ∀ other, other ≠ user → pending other → fewer other) :
    mirror.Finds users fewer (found.insert user record) where
  sound other known hknown := by
    rw [Table.get?_insert] at hknown
    split at hknown
    · next hsame =>
      cases hknown
      exact hsame ▸ hrow
    · exact h.sound other known hknown
  complete other hmem hnone hstored := by
    rw [Table.get?_insert] at hnone
    split at hnone
    · cases hnone
    · next hother => exact himp other (Ne.symm hother) (h.complete other hmem hnone hstored)

/-- Once nobody is pending what was found is what the mirror finds. -/
theorem takeFirst (h : mirror.Finds users (fun _ => False) found) :
    (Engine.takeFirst found users).map Record.timeless = mirror.readMany users := by
  have hrows : ∀ user ∈ users, found[user]?.map Record.timeless = mirror.rows[user]? := by
    intro user hmem
    cases hfound : found[user]? with
    | some record => exact (h.sound user record hfound).symm
    | none =>
      refine Eq.symm (Decidable.byContradiction fun hrow => ?_)
      exact h.complete user hmem hfound hrow
  rw [Mirror.readMany]
  generalize mirror.rows = rows at hrows
  clear h
  induction users generalizing found rows with
  | nil => rfl
  | cons user rest ih =>
    have huser := hrows user List.mem_cons_self
    have herased : ∀ other ∈ rest,
        (found.erase user)[other]?.map Record.timeless = (rows.erase user)[other]? := by
      intro other hmem
      rw [Table.get?_erase, Table.get?_erase]
      split
      · rfl
      · exact hrows other (List.mem_cons_of_mem user hmem)
    rw [Engine.takeFirst, Engine.takeFirst]
    cases hfound : found[user]? with
    | some record =>
      rw [hfound] at huser
      rw [← huser]
      exact congrArg (record.timeless :: ·) (ih _ herased)
    | none =>
      rw [hfound] at huser
      rw [← huser]
      exact ih rows fun other hmem => hrows other (List.mem_cons_of_mem user hmem)

end Mirror.Finds

namespace Engine

open Site

/-- A look-up of one of several users finds the mirror's row, or leaves the user missing. -/
theorem gatherOne_mirrors (h : site.Mirrors outside past mirror) (hsettled : mirror.Settled)
    {users rest : List String} {user : String} {gathered : Gathered}
    (hfinds : mirror.Finds users (fun other => other ∈ user :: rest ∨ other ∈ gathered.missing)
      gathered.found) :
    Ensures (gatherOne outside gathered user) site fun later site' =>
      site'.Mirrors outside past mirror ∧
        mirror.Finds users (fun other => other ∈ rest ∨ other ∈ later.missing) later.found := by
  unfold gatherOne
  split
  · next hcontains =>
    refine ensures_pure ⟨h, hfinds.mono fun other hnone _ hpending => ?_⟩
    rcases hpending with hlisted | hmissing
    · rcases List.mem_cons.mp hlisted with rfl | hrest
      · rw [Std.ExtTreeMap.contains_eq_isSome_getElem?, hnone] at hcontains
        cases hcontains
      · exact .inl hrest
    · exact .inr hmissing
  · refine (cacheGet_mirrors h user).bind fun found looked hcall => ?_
    obtain ⟨hlooked, hfound⟩ := hcall
    split
    · next record =>
      have hseen := (hfound record rfl).1
      rw [hsettled] at hseen
      refine ensures_pure ⟨hlooked, hfinds.insert hseen fun other hne hpending => ?_⟩
      rcases hpending with hlisted | hmissing
      · exact .inl ((List.mem_cons.mp hlisted).resolve_left hne)
      · exact .inr hmissing
    · refine ensures_pure ⟨hlooked, hfinds.mono fun other _ _ hpending => ?_⟩
      rcases hpending with hlisted | hmissing
      · rcases List.mem_cons.mp hlisted with rfl | hrest
        · exact .inr (List.mem_append_right _ (List.mem_singleton.mpr rfl))
        · exact .inl hrest
      · exact .inr (List.mem_append_left _ hmissing)

/-- After the look-ups of several users only those who are missing may still have to be found. -/
theorem gatherAll_mirrors (h : site.Mirrors outside past mirror) (hsettled : mirror.Settled)
    (users : List String) :
    Ensures (users.foldlM (gatherOne outside) {}) site fun gathered later =>
      later.Mirrors outside past mirror ∧
        mirror.Finds users (· ∈ gathered.missing) gathered.found := by
  have hstart : mirror.Finds users (fun user => user ∈ users ∨ user ∈ ([] : List String)) ∅ :=
    ⟨fun user record hfound => by simp at hfound, fun user hmem _ _ => .inl hmem⟩
  refine (ensures_foldlM (fun rest (gathered : Gathered) (later : Site) =>
    later.Mirrors outside past mirror ∧
      mirror.Finds users (fun user => user ∈ rest ∨ user ∈ gathered.missing) gathered.found)
    (fun _ _ _ _ hround => gatherOne_mirrors hround.1 hsettled hround.2) ⟨h, hstart⟩).mono ?_
  intro gathered later hcall
  exact ⟨hcall.1, hcall.2.mono fun _ _ _ hpending => hpending.resolve_left List.not_mem_nil⟩

/-- A row that a read of several users takes is found for its user. -/
theorem gatherStored_mirrors (hbears : outside.Bears) (h : site.Mirrors outside past mirror)
    (hsettled : mirror.Settled) {users : List String} {pending fewer : String → Prop}
    {found : Table Record} {record : Record}
    (hrow : mirror.rows[record.userId]? = some record.timeless) (hactive : 0 ≤ record.lastActivity)
    (hfinds : mirror.Finds users pending found)
    (himp : ∀ user, user ≠ record.userId → pending user → fewer user) :
    Ensures (gatherStored outside found record) site fun found later =>
      later.Mirrors outside past mirror ∧ mirror.Finds users fewer found := by
  have hview := (hsettled record.userId).trans hrow
  exact (backfill_mirrors hbears h hview hactive).bind fun _ later hlater =>
    ensures_pure ⟨hlater, hfinds.insert hrow himp⟩

/-- After the rows of several users were taken everybody is found who has a row. -/
theorem gatherAllStored_mirrors (hbears : outside.Bears) (h : site.Mirrors outside past mirror)
    (hsettled : mirror.Settled) {users : List String} {found : Table Record}
    {records : List Record}
    (hrows : ∀ record ∈ records,
      mirror.rows[record.userId]? = some record.timeless ∧ 0 ≤ record.lastActivity)
    (hfinds : mirror.Finds users (· ∈ records.map Record.userId) found) :
    Ensures (records.foldlM (gatherStored outside) found) site fun found later =>
      later.Mirrors outside past mirror ∧ mirror.Finds users (fun _ => False) found := by
  induction records generalizing found site with
  | nil => exact ⟨h, hfinds.mono fun _ _ _ hpending => List.not_mem_nil hpending⟩
  | cons record rest ih =>
    obtain ⟨hrow, hactive⟩ := hrows record List.mem_cons_self
    have hfirst := gatherStored_mirrors hbears h hsettled hrow hactive hfinds
      fun _ hne hpending => (List.mem_cons.mp hpending).resolve_left hne
    rw [List.foldlM_cons]
    refine hfirst.bind fun found later hcall => ?_
    exact ih hcall.1 (fun other hmem => hrows other (List.mem_cons_of_mem record hmem)) hcall.2

/-- A read of several users gives the mirror's rows. -/
theorem readMany_mirrors (hbears : outside.Bears) (h : site.Mirrors outside past mirror)
    (hsettled : mirror.Settled) (henabled : mirror.settings.enabled = true) (users : List String) :
    Ensures (readMany outside users) site fun result later =>
      result.map (·.map Record.timeless) = .ok (mirror.readMany users) ∧
        later.Mirrors outside past mirror := by
  refine ensures_get_bind ?_
  rw [h.settings, henabled, if_neg (by simp)]
  refine (gatherAll_mirrors h hsettled users).bind fun gathered looked hcall => ?_
  obtain ⟨hlooked, hfinds⟩ := hcall
  split
  · next hnone =>
    rw [List.isEmpty_iff.mp hnone] at hfinds
    have hall := hfinds.mono fun _ _ _ hpending => List.not_mem_nil hpending
    exact ensures_pure ⟨congrArg Except.ok hall.takeFirst, hlooked⟩
  · have hread := storeGetMany_mirrors hbears hlooked gathered.missing
    refine hread.bind fun result later hcall => ?_
    obtain ⟨hlater, records, rfl, hrows, hcovers⟩ := hcall
    have hlisted := hfinds.mono fun user _ hrow hmissing => hcovers user hmissing hrow
    have hfill := gatherAllStored_mirrors hbears hlater hsettled hrows hlisted
    refine hfill.bind fun found last hcall => ?_
    exact ensures_pure ⟨congrArg Except.ok hcall.2.takeFirst, hcall.1⟩

/-- Deleting a user takes the row out of the mirror. -/
theorem delete_mirrors (hbears : outside.Bears) (h : site.Mirrors outside past mirror)
    (hsettled : mirror.Settled) (user : String) :
    Ensures (delete outside user) site fun result later => result = .ok () ∧
      later.Mirrors outside past (mirror.settle (mirror.rows.delete user) []) := by
  refine (storeDelete_ensures outside user site).bind fun result deleted hcall => ?_
  obtain ⟨faded, hfades, ⟨rfl, rfl⟩ | ⟨fault, -, hfault, -⟩⟩ := hcall
  · have hdeleted := (h.fades hfades).withStore (h.keyed.delete user) (h.active.delete user)
    rw [Store.timeless_delete, h.rows] at hdeleted
    refine (cacheRemove_mirrors hbears hdeleted user).bind fun _ dropped hcall => ?_
    obtain ⟨hdropped, hgone⟩ := hcall
    -- What the cache still shows is of other users, whose rows are the same.
    have hreview := hdropped.review fun other record hcached =>
      show (mirror.rows.delete user)[other]? = some record.timeless by
        have hne : ¬user = other := by
          rintro rfl
          rw [hgone] at hcached
          cases hcached
        rw [Store.get?_delete, if_neg hne, ← hsettled other]
        exact (hdropped.cached other record hcached).1
    refine (publishToPeers_mirrors hreview _).bind fun _ told htold => ?_
    refine (forget_tracks user told).bind fun _ last htracks => ensures_pure ⟨rfl, ?_⟩
    rw [Mirror.settle, List.append_nil]
    exact htold.tracks htracks
  · rw [hbears.store] at hfault
    cases hfault

/-- Removing a user does what it does to the mirror. -/
theorem remove_mirrors (hbears : outside.Bears) (h : site.Mirrors outside past mirror)
    (hsettled : mirror.Settled) (henabled : mirror.settings.enabled = true) (user : String) :
    Ensures (remove outside user) site fun result later =>
      result = (mirror.remove user).1 ∧ later.Mirrors outside past (mirror.remove user).2 := by
  unfold Mirror.remove
  refine ensures_get_bind ?_
  rw [h.settings, henabled, if_neg (by simp)]
  cases hcheck : Record.checkUser user with
  | error failure => exact ensures_pure ⟨rfl, h⟩
  | ok _ =>
    refine (delete_mirrors hbears h hsettled user).bind fun result later hcall => ?_
    obtain ⟨rfl, hlater⟩ := hcall
    exact (release_tracks user later).bind fun _ _ htracks =>
      ensures_pure ⟨rfl, hlater.tracks htracks⟩

/-- A turned row is shown, in the cache and to clients, unless the cache shows a record of the
user that has not passed. -/
theorem propagate_mirrors (hbears : outside.Bears) (h : site.Mirrors outside past mirror)
    {now : Moment} {record : Record} (hactive : 0 ≤ record.lastActivity)
    (hpassed : ∀ known, mirror.view record.userId = some known → known.isExpired now = true) :
    Ensures (propagate outside now record) site fun _ later =>
      later.Mirrors outside past
        ((mirror.see record.timeless).tell [record.timeless.presence]) := by
  have hspread : ∀ looked, looked.Mirrors outside past mirror →
      Ensures (do cacheAndSync outside record; broadcast record; release record.userId) looked
        fun _ later => later.Mirrors outside past
          ((mirror.see record.timeless).tell [record.timeless.presence]) := by
    intro looked hlooked
    refine (cacheAndSync_mirrors hbears hlooked hactive).bind fun _ synced hsynced => ?_
    refine (broadcast_mirrors hsynced record).bind fun _ shown hshown => ?_
    exact (release_tracks record.userId shown).mono fun _ _ htracks => hshown.tracks htracks
  refine (noteSwept_tracks record.userId now site).bind fun _ noted hnoted => ?_
  have hlook := cacheGet_mirrors (h.tracks hnoted) record.userId
  refine hlook.bind fun found looked hcall => ?_
  obtain ⟨hlooked, hfound⟩ := hcall
  split
  · next known =>
    have hknown := hpassed known.timeless (hfound known rfl).1
    rw [Record.isExpired_timeless] at hknown
    rw [if_pos hknown]
    exact hspread looked hlooked
  · exact hspread looked hlooked

/-- The rows of a node follow its mirror through the step of a sweep on the store, which gives
back the turned rows in some order. -/
theorem storeSweep_mirrors (hbears : outside.Bears) (h : site.Mirrors outside past mirror)
    (hsettled : mirror.Settled) :
    Ensures (storeSweep outside site.clock) site fun result later =>
      later.Mirrors outside past (mirror.sweeping []) ∧ ∃ restored, result = .ok restored ∧
        (restored.map Record.timeless).Perm (mirror.rows.expired mirror.clock) ∧
          ∀ record ∈ restored, 0 ≤ record.lastActivity := by
  refine (storeSweep_ensures outside site.clock site).mono fun result later hcall => ?_
  obtain ⟨faded, hfades, ⟨rfl, rfl⟩ | ⟨fault, -, hfault, -⟩⟩ := hcall
  · have hswept := (h.fades hfades).withStore (h.keyed.sweep site.clock)
      (h.active.sweep site.clock fun _ _ hrow => hrow)
    rw [Store.timeless_sweep, h.rows, h.clock] at hswept
    have hturned := (turned_perm outside site site.clock).map Record.timeless
    rw [← Store.expired_timeless, h.rows] at hturned
    rw [Mirror.sweeping_nil hsettled, ← h.clock]
    refine ⟨h.clock ▸ hswept, _, rfl, hturned, fun record hmem => ?_⟩
    obtain ⟨user, row, hrow, -, rfl⟩ := (Store.mem_expired_iff _ _ _).mp (mem_turned_iff.mp hmem)
    exact h.active user row hrow
  · rw [hbears.store] at hfault
    cases hfault

/-- What holds of a node during a sweep while some of the turned rows are still to be spread. -/
def Spreading (outside : Outside) (past : List PresenceEvent) (mirror : Mirror)
    (turned pending : List Record) (site : Site) : Prop :=
  (∀ record ∈ pending, 0 ≤ record.lastActivity) ∧
    ∃ spread, spread ++ pending.map Record.timeless = turned ∧
      site.Mirrors outside past (mirror.sweeping spread)

/-- Spreading a turned row takes it off the list: what the cache shows of its user has passed. -/
theorem propagate_spreading (hbears : outside.Bears) (hkeyed : mirror.rows.Keyed)
    {turned : List Record} (hturned : turned.Perm (mirror.rows.expired mirror.clock))
    {record : Record} {rest : List Record}
    (h : Spreading outside past mirror turned (record :: rest) site) :
    Ensures (propagate outside mirror.clock record) site fun _ later =>
      Spreading outside past mirror turned rest later := by
  obtain ⟨hactive, spread, hall, hmirrors⟩ := h
  rw [List.map_cons] at hall
  have hexpired : record.timeless ∈ mirror.rows.expired mirror.clock := by
    rw [← hturned.mem_iff, ← hall]
    exact List.mem_append_right _ List.mem_cons_self
  have hpending : record.userId ∉ spread.map Record.userId := by
    have hnodup := (hturned.map Record.userId).nodup_iff.mpr
      (Store.nodup_expired hkeyed mirror.clock)
    rw [← hall, List.map_append, List.nodup_append] at hnodup
    exact fun hmem => hnodup.2.2 _ hmem _ (List.mem_map_of_mem List.mem_cons_self) rfl
  have hpassed : ∀ known, (mirror.sweeping spread).view record.userId = some known →
      known.isExpired mirror.clock = true := by
    intro known hknown
    obtain ⟨user, row, hrow, hpassed, hrestored⟩ := (Store.mem_expired_iff _ _ _).mp hexpired
    have huser : record.userId = user :=
      (congrArg Record.userId hrestored).trans (hkeyed user row hrow)
    simp only [Mirror.sweeping] at hknown
    rw [if_neg hpending, huser, hrow] at hknown
    cases hknown
    exact hpassed
  have hfirst := propagate_mirrors hbears hmirrors (hactive record List.mem_cons_self) hpassed
  refine hfirst.mono fun _ later hlater => ?_
  refine ⟨fun other hmem => hactive other (List.mem_cons_of_mem record hmem),
    spread ++ [record.timeless], ?_, ?_⟩
  · rw [List.append_assoc]
    exact hall
  · rw [Mirror.sweeping_append hkeyed spread hexpired]
    exact hlater

/-- A sweep does what it does to the mirror, with the turned rows in some order. -/
theorem expire_mirrors (hbears : outside.Bears) (h : site.Mirrors outside past mirror)
    (hsettled : mirror.Settled) (henabled : mirror.settings.enabled = true) :
    Ensures (expire outside) site fun result later => ∃ turned : List Record,
      turned.Perm (mirror.rows.expired mirror.clock) ∧
        result.map (·.map Record.timeless) = .ok turned ∧
        later.Mirrors outside past (mirror.expire turned) := by
  refine ensures_get_bind ?_
  rw [h.settings, henabled, if_neg (by simp)]
  have hsweep : Ensures (sweep outside) site fun result later => ∃ restored,
      (restored.map Record.timeless).Perm (mirror.rows.expired mirror.clock) ∧
        result = .ok restored ∧
        later.Mirrors outside past (mirror.expire (restored.map Record.timeless)) := by
    refine ensures_get_bind ?_
    refine (storeSweep_mirrors hbears h hsettled).bind fun result swept hcall => ?_
    obtain ⟨hswept, restored, rfl, hturned, hactive⟩ := hcall
    rw [h.clock]
    have hspreads := ensures_forM
      (Spreading outside past mirror (restored.map Record.timeless))
      (fun _ _ _ hround => propagate_spreading hbears h.rowsKeyed hturned hround)
      ⟨hactive, [], rfl, hswept⟩
    refine hspreads.bind fun _ spread hspread => ?_
    obtain ⟨-, all, hall, hmirrors⟩ := hspread
    rw [List.map_nil, List.append_nil] at hall
    rw [hall, Mirror.sweeping_perm h.rowsKeyed hturned] at hmirrors
    refine (pruneSlots_tracks mirror.clock spread).bind fun _ _ htracks => ?_
    exact ensures_pure ⟨restored, hturned, rfl, hmirrors.tracks htracks⟩
  refine hsweep.bind fun result later hcall => ?_
  obtain ⟨restored, hturned, rfl, hlater⟩ := hcall
  exact ensures_pure ⟨_, hturned, rfl, hlater⟩

end Engine

end PresenceTracker
