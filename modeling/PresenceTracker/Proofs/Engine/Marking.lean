import PresenceTracker.Proofs.Engine.Committing

/-!
# What an operation does to the rows of users

A removal removes the row of its user, a sweep writes the rows that it gives back, and a
transition does what committing its change does. So every operation keeps the row of a user,
writes it, or removes it, and the node remembers which. An operation writes nothing but
activity where the change that it comes to calls for that, and nowhere else.
-/

namespace PresenceTracker

namespace Engine

open Site

variable {outside : Outside} {site : Site}

/-- Forgetting a user without a row remembers that the row was removed. -/
theorem forget_remembers {user : String} (hgone : site.store[user]? = none) :
    Ensures (forget user) site fun _ later => site.Remembers
      (fun other => if user = other then .removed else .kept) [] later := by
  refine ensures_modify ⟨rfl, rfl, fun other => .inl ?_, fun _ _ hnone => hnone,
    fun other hremoved => ?_, [], (List.append_nil _).symm, rfl⟩
  · show (site.slots.erase user)[other]? = _
    rw [Table.get?_erase]
    split <;> rfl
  · split at hremoved
    · next hsame => exact hsame ▸ hgone
    · cases hremoved

/-- A deletion that succeeds removes the row, and one that fails leaves nothing behind. -/
theorem delete_remembers (user : String) :
    Ensures (delete outside user) site fun result later => site.Remembers
      (fun other => if result.isOk && user = other then .removed else .kept) [] later := by
  have hcalled := (storeDelete_ensures outside user site).and
    (storeCall_asked outside (.delete user) _ site)
  refine hcalled.bind fun result deleted hcall => ?_
  obtain ⟨⟨faded, hfades, ⟨rfl, rfl⟩ | ⟨fault, rfl, -, rfl⟩⟩, hasked⟩ := hcall
  · have hdeleted : site.Idles (faded.withStore (site.store.delete user)) := by
      refine Remembers.of_same hfades.clock hfades.settings hfades.slots (fun other hnone => ?_)
        hasked rfl
      show (site.store.delete user)[other]? = none
      rw [Store.get?_delete, hnone, ite_self]
    have hgone : (faded.withStore (site.store.delete user)).store[user]? = none := by
      show (site.store.delete user)[user]? = none
      rw [Store.get?_delete, if_pos rfl]
    refine (cacheRemove_frame (idles_frame outside) user _).bind fun _ dropped hdropped => ?_
    refine (publishToPeers_frame (idles_frame outside) (fun _ => by nofun) dropped).bind
      fun _ told htold => ?_
    have hidle := hdropped.idles htold
    refine (forget_remembers (hidle.absent user rfl hgone)).bind fun _ _ hforgot => ?_
    have hdone := Remembers.after_idles (hdeleted.idles hidle) hforgot
    refine ensures_pure ?_
    simpa only [Except.isOk, Except.toBool, Bool.true_and, decide_eq_true_eq] using hdone
  · exact ensures_pure (hfades.remembers hasked)

/-- A removal that succeeds while tracking is enabled removes the row. -/
theorem remove_remembers (outside : Outside) (site : Site) (user : String) :
    Ensures (remove outside user) site fun result later => site.Remembers
      (fun other => if site.settings.enabled && result.isOk && user = other then .removed
        else .kept) [] later := by
  refine ensures_get_bind ?_
  cases henabled : site.settings.enabled with
  | false => exact ensures_pure (Idles.refl site)
  | true =>
    rw [if_neg (by simp)]
    cases hcheck : Record.checkUser user with
    | error failure => exact ensures_pure (Idles.refl site)
    | ok _ =>
      refine (delete_remembers user).bind fun result later hlater => ?_
      refine (release_idles later user).bind fun _ last hlast => ?_
      have hdone := hlater.idles hlast
      match result with
      | .ok () => exact ensures_pure hdone
      | .error (.refused failure) => exact ensures_pure hdone
      | .error .killed => exact ensures_pure hdone

/-- What a sweep does to the rows of users, given the rows that it gives back. -/
def sweepMark (restored : List Record) (user : String) : Mark :=
  if user ∈ restored.map Record.userId then .written else .kept

theorem sweepMark_append (done rest : List Record) :
    (fun user => (sweepMark done user).andThen (sweepMark rest user)) =
      sweepMark (done ++ rest) := by
  funext user
  by_cases hdone : user ∈ done.map Record.userId <;>
    by_cases hrest : user ∈ rest.map Record.userId <;>
      simp only [sweepMark, List.map_append, List.mem_append, hdone, hrest, or_true, or_false,
        or_self, if_true, if_false, Mark.andThen]

/-- Spreading a row that the sweep wrote remembers the write. -/
theorem propagate_remembers (record : Record) {now : Moment} (hnow : now = site.clock) :
    Ensures (propagate outside now record) site fun _ later =>
      site.Remembers (sweepMark [record]) [] later := by
  have hnote : Ensures (noteSwept record.userId now) site fun _ later =>
      site.Remembers (sweepMark [record]) [] later := by
    refine ensures_modify ⟨rfl, rfl, fun other => .inl ?_, fun _ _ hnone => hnone,
      fun other hremoved => ?_, [], (List.append_nil _).symm, rfl⟩
    · show (site.slots.insert record.userId now)[other]? = _
      rw [Table.get?_insert, sweepMark, List.map_singleton]
      by_cases hsame : record.userId = other
      · rw [if_pos hsame, if_pos (List.mem_singleton.mpr hsame.symm), hnow]
        rfl
      · rw [if_neg hsame, if_neg fun hmem => hsame (List.mem_singleton.mp hmem).symm]
        rfl
    · unfold sweepMark at hremoved
      split at hremoved <;> cases hremoved
  refine hnote.bind fun _ noted hnoted => ?_
  have hframe := idles_frame outside
  have hspread : ∀ looked, noted.Idles looked →
      Ensures (do cacheAndSync outside record; broadcast record; release record.userId) looked
        fun _ later => site.Remembers (sweepMark [record]) [] later := by
    intro looked hlooked
    refine (cacheAndSync_frame hframe record looked).bind fun _ synced hsynced => ?_
    refine (broadcast_frame hframe record synced).bind fun _ shown hshown => ?_
    exact (release_idles shown record.userId).mono fun _ _ hlater =>
      hnoted.idles (((hlooked.idles hsynced).idles hshown).idles hlater)
  refine (cacheGet_frame hframe record.userId noted).bind fun found looked hlooked => ?_
  split
  · split
    · exact hspread looked hlooked
    · exact (release_idles looked record.userId).mono fun _ _ hlater =>
        hnoted.idles (hlooked.idles hlater)
  · exact hspread looked hlooked

/-- Forgetting the slots whose windows are closed leaves nothing behind. -/
theorem pruneSlots_idles (site : Site) :
    Ensures (pruneSlots site.clock) site fun _ later => site.Idles later := by
  refine ensures_modify ⟨rfl, rfl, fun user => ?_, fun _ _ hnone => hnone,
    fun _ => nofun, [], (List.append_nil _).symm, rfl⟩
  show Remains site.settings site.clock site.slots[user]? (site.slots.filter _)[user]?
  rw [Table.get?_filter]
  cases hslot : site.slots[user]? with
  | none => exact .refl site.settings site.clock none
  | some moment =>
    cases hopen : coalesces (some moment) site.clock site.settings.minUpdateInterval with
    | true =>
      rw [Option.filter_some, if_pos hopen]
      exact .refl site.settings site.clock _
    | false =>
      rw [Option.filter_some, if_neg (Bool.eq_false_iff.mp hopen)]
      exact .inr ⟨rfl, hopen⟩

/-- A sweep writes the rows that it gives back. -/
theorem sweep_remembers :
    Ensures (sweep outside) site fun result later =>
      site.Remembers (sweepMark (result.toOption.getD [])) [] later := by
  refine ensures_get_bind ?_
  have hcalled := (storeSweep_ensures outside site.clock site).and
    (storeSweep_asked outside site.clock site)
  refine hcalled.bind fun result swept hcall => ?_
  obtain ⟨⟨faded, hfades, ⟨rfl, rfl⟩ | ⟨fault, rfl, -, rfl⟩⟩, hasked⟩ := hcall
  · have hswept : site.Idles (faded.withStore (site.store.sweep site.clock)) := by
      refine Remembers.of_same hfades.clock hfades.settings hfades.slots (fun other hnone => ?_)
        hasked rfl
      show (site.store.sweep site.clock)[other]? = none
      rw [Store.get?_sweep, hnone, Option.map_none]
    have hspread : Ensures ((site.turned outside site.clock).forM (propagate outside site.clock))
        (faded.withStore (site.store.sweep site.clock)) fun _ later =>
          site.Remembers (sweepMark (site.turned outside site.clock)) [] later := by
      have hrounds : Ensures ((site.turned outside site.clock).forM (propagate outside site.clock))
          (faded.withStore (site.store.sweep site.clock)) fun _ later =>
            ∃ done, site.turned outside site.clock = done ++ [] ∧
              site.Remembers (sweepMark done) [] later := by
        refine ensures_forM (fun rest later =>
          ∃ done, site.turned outside site.clock = done ++ rest ∧
            site.Remembers (sweepMark done) [] later) (fun record rest later hinv => ?_)
          ⟨[], rfl, hswept⟩
        obtain ⟨done, hdone, hlater⟩ := hinv
        refine (propagate_remembers record hlater.clock.symm).mono fun _ last hlast => ?_
        refine ⟨done ++ [record], by rw [hdone, List.append_assoc, List.singleton_append], ?_⟩
        rw [← sweepMark_append]
        exact hlater.andThen hlast
      refine hrounds.mono fun _ later hinv => ?_
      obtain ⟨done, hdone, hlater⟩ := hinv
      rw [List.append_nil] at hdone
      exact hdone ▸ hlater
    refine hspread.bind fun _ spread hspread => ?_
    have hprune := pruneSlots_idles spread
    rw [hspread.clock] at hprune
    exact hprune.bind fun _ _ hlast => ensures_pure (hspread.idles hlast)
  · exact ensures_pure (hfades.remembers hasked)

/-- A sweep writes the rows that it gives back. -/
theorem expire_remembers (outside : Outside) (site : Site) :
    Ensures (expire outside) site fun result later =>
      site.Remembers (sweepMark (result.toOption.getD [])) [] later := by
  refine ensures_get_bind ?_
  split
  · exact ensures_pure (Idles.refl site)
  · refine sweep_remembers.bind fun result later hlater => ?_
    match result with
    | .ok restored => exact ensures_pure hlater
    | .error (.refused failure) => exact ensures_pure hlater
    | .error .killed => exact ensures_pure hlater

end Engine

namespace Operation

/-- The calls of an operation that write nothing but activity. -/
def touches (outside : Outside) (operation : Operation) (site : Site) : List StoreCall :=
  (((operation.run outside).run site).2.asked.drop site.asked.length).filter StoreCall.touches

/-- What an operation does to a user's row: a removal that succeeds removes it, a sweep writes
the rows that it gives back, and a change writes the row if a write of it succeeds. -/
def mark (outside : Outside) (operation : Operation) (site : Site) (user : String) : Mark :=
  match operation with
  | remove gone =>
    if site.settings.enabled && ((Engine.remove outside gone).run site).1.isOk && gone = user then
      .removed
    else .kept
  | expire => Engine.sweepMark (((Engine.expire outside).run site).1.toOption.getD []) user
  | _ =>
    match operation.pending outside site with
    | none => .kept
    | some pending => pending.mark outside (operation.touches outside site) user

variable {outside : Outside} {operation : Operation} {site : Site}

theorem touches_of_remembers {marks : String → Mark} {touches : List StoreCall}
    (h : site.Remembers marks touches ((operation.run outside).run site).2) :
    operation.touches outside site = touches := by
  obtain ⟨calls, hasked, htouches⟩ := h.asked
  rw [Operation.touches, hasked, List.drop_left, htouches]

/-- The writes of activity that an operation calls for. -/
def due (outside : Outside) (operation : Operation) (site : Site) : List StoreCall :=
  match operation.pending outside site with
  | none => []
  | some pending => pending.due

/-- An operation that commits the change it comes to is remembered by what the change does. -/
theorem remembers_of_commits
    (hcommits : Ensures (operation.run outside) site fun _ later =>
      site.Commits outside (operation.pending outside site) later)
    (hmark : operation.mark outside site = fun user =>
      match operation.pending outside site with
      | none => .kept
      | some pending => pending.mark outside (operation.touches outside site) user) :
    Ensures (operation.run outside) site fun _ later =>
      site.Remembers (operation.mark outside site) (operation.due outside site) later := by
  unfold due
  rw [hmark]
  cases hpending : operation.pending outside site with
  | none =>
    rw [hpending] at hcommits
    exact hcommits
  | some pending =>
    rw [hpending] at hcommits
    have hlater : site.Remembers (pending.mark outside pending.due) pending.due _ := hcommits
    rw [touches_of_remembers hlater]
    exact hlater

/-- A change that an operation comes to was loaded and decided on at a site that was idle until
then, with rows and cached records under their users and in step. -/
theorem pending_loads {pending : Pending} (h : operation.pending outside site = some pending) :
    ∃ (ready : Site) (transition : Transition), site.Idles ready ∧ (site.Filed → ready.Filed) ∧
      (site.InStep → ready.InStep) ∧
      (Engine.load outside pending.user).run ready = (.ok pending.current, pending.site) ∧
      transition.decision pending.current pending.site.clock
        pending.site.settings.awayTimeoutMs = .ok (.apply pending.next) := by
  cases operation with
  | change user transition =>
    obtain ⟨rfl, hload, hdecision⟩ := Site.pendingChange_eq_some h
    exact ⟨site, transition, .refl site, id, id, hload, hdecision⟩
  | setLastActivity user moment =>
    obtain ⟨rfl, hload, hdecision⟩ := Site.pendingChange_eq_some (Site.pendingAway_eq_some h)
    refine ⟨_, .away false, ?_, fun hfiled => ?_, fun hinStep => ?_, hload, hdecision⟩
    · exact (Engine.cacheActivity_frame (Site.idles_frame outside) _ moment site).idles
        (Site.release_idles _ _)
    · exact (Site.filed_frame outside).release _ _
        (Engine.cacheActivity_frame (Site.filed_frame outside).toFrame _ moment site hfiled)
    · have hnoted : Ensures (Engine.cacheActivity outside pending.user moment) site _ :=
        Engine.cacheActivity_coherent hinStep.coherent pending.user moment
      exact (hnoted.rests (Engine.release_rests _ _)).inStep
  | read | readOrDefault | readMany | remove | clearCaches | expire => cases h

/-- Until a change is committed the site is idle, and the change is one of its user's record. -/
theorem pending_idles (hfiled : site.Filed) {pending : Pending}
    (h : operation.pending outside site = some pending) :
    site.Idles pending.site ∧ pending.next.userId = pending.user := by
  obtain ⟨ready, transition, hready, hstill, -, hload, hdecision⟩ := pending_loads h
  have hidles := Engine.load_frame (Site.idles_frame outside) pending.user ready
  have hgives : Ensures (Engine.load outside pending.user) ready _ :=
    Engine.load_gives (hstill hfiled) pending.user
  simp only [Ensures, hload] at hidles hgives
  exact ⟨hready.idles hidles, (Transition.userId_of_apply hdecision).trans (hgives.2 _ rfl).2⟩

/-- Where cache and store agree a change of a record that exists is one of a user with a row. -/
theorem pending_row (hinStep : site.InStep) {pending : Pending}
    (h : operation.pending outside site = some pending)
    (hpersisted : pending.current.persisted = true) :
    ∃ row : Record, pending.site.store[pending.user]? = some row := by
  obtain ⟨ready, transition, -, -, hstep, hload, -⟩ := pending_loads h
  have hbacked : Ensures (Engine.load outside pending.user) ready _ :=
    Engine.load_coherent (hstep hinStep).coherent pending.user
  simp only [Ensures, hload] at hbacked
  obtain ⟨row, hrow, -⟩ := (hbacked.2 _ rfl).2 hpersisted _ rfl
  exact ⟨row, hrow⟩

/-- What an operation leaves behind is what it does to the rows of users. It writes nothing but
activity where the change that it comes to calls for that, and nowhere else. -/
theorem run_remembers (outside : Outside) (hfiled : site.Filed) (operation : Operation) :
    Ensures (operation.run outside) site fun _ later =>
      site.Remembers (operation.mark outside site) (operation.due outside site) later := by
  have hframe := Site.idles_frame outside
  cases operation with
  | change user transition =>
    refine remembers_of_commits ?_ rfl
    exact (Engine.change_commits hfiled user transition).bind fun _ _ h => ensures_pure h
  | setLastActivity user moment =>
    refine remembers_of_commits ?_ rfl
    exact (Engine.setLastActivity_commits hfiled user moment).bind fun _ _ h => ensures_pure h
  | read user =>
    exact (Engine.read_frame hframe user site).bind fun _ _ h => ensures_pure h
  | readOrDefault user =>
    exact (Engine.readOrDefault_frame hframe user site).bind fun _ _ h => ensures_pure h
  | readMany users =>
    exact (Engine.readMany_frame hframe users site).bind fun _ _ h => ensures_pure h
  | clearCaches =>
    exact (Engine.clearCaches_frame hframe site).bind fun _ _ h => ensures_pure h
  | remove gone =>
    have hremove := (Engine.remove_remembers outside site gone).and
      (ensures_run (Engine.remove outside gone) site)
    refine hremove.bind fun result later hcall => ensures_pure ?_
    obtain ⟨hlater, hrun⟩ := hcall
    unfold mark
    simp only [hrun]
    exact hlater
  | expire =>
    have hexpire := (Engine.expire_remembers outside site).and
      (ensures_run (Engine.expire outside) site)
    refine hexpire.bind fun result later hcall => ensures_pure ?_
    obtain ⟨hlater, hrun⟩ := hcall
    unfold mark
    simp only [hrun]
    exact hlater

end Operation

end PresenceTracker
