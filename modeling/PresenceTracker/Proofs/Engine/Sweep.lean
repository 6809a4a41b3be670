import PresenceTracker.Proofs.Engine.Upkeep

/-!
# The sweep keeps a node coherent

A sweep turns rows in one step on the store and spreads them one after the other, in whichever
order the store gives them back. Until a row is spread its user is open, and what the cache shows of
that user is the passed do-not-disturb that the row was before: so no row is taken for superseded.
-/

namespace PresenceTracker

/-- What holds during a sweep at `now` while the turned rows `pending` are still to be
spread. -/
structure Site.Sweeping (start : Site) (now : Moment) (swept : Store) (pending : List Record)
    (site : Site) : Prop where
  /-- Only the users of the pending rows may be behind. -/
  coherent : start.Coherent (pending.map Record.userId) (pending.map Record.userId) site
  /-- The rows are those that the sweep left. -/
  store : site.store = swept
  /-- A pending row is its user's row. -/
  row : ∀ record ∈ pending, swept[record.userId]? = some record
  /-- No user has two pending rows. -/
  nodup : (pending.map Record.userId).Nodup
  /-- What the cache shows of the user of a pending row has passed. -/
  passed : ∀ record ∈ pending, ∀ known,
    site.cached? record.userId = some known → known.isExpired now = true

namespace Site.Sweeping

variable {start site later : Site} {now : Moment} {swept : Store} {record : Record}
  {rest : List Record}

/-- A sweep of the rows opens the users whose rows it turns, and what the cache shows of
them is what their rows were. -/
theorem opens {outside : Outside} {faded : Site} (h : start.Coherent [] [] site)
    (hfades : site.Fades outside faded) (now : Moment) :
    start.Sweeping now (site.store.sweep now) (site.turned outside now)
      (faded.withStore (site.store.sweep now)) where
  coherent := by
    have hturned : (site.turned outside now).Perm (faded.store.expired now) :=
      hfades.store ▸ turned_perm outside site now
    rw [← hfades.store]
    exact (h.rests hfades.toRests).sweep hturned
  store := rfl
  row record hmem := Store.get?_sweep_of_mem_expired h.keyed (mem_turned_iff.mp hmem)
  nodup := nodup_users_turned outside h.keyed now
  passed record hmem known hknown := by
    obtain ⟨user, row, hrow, hexpired, rfl⟩ :=
      (Store.mem_expired_iff _ _ _).mp (mem_turned_iff.mp hmem)
    have huser : row.restored.userId = user :=
      (Record.userId_restored row).trans (h.keyed user row hrow)
    obtain ⟨row', hrow', hagrees⟩ :=
      h.cached row.restored.userId List.not_mem_nil known (hfades.cached? hknown)
    rw [huser, hrow] at hrow'
    cases hrow'
    rw [hagrees.isExpired_eq]
    exact hexpired

/-- A sweep goes on from a site at rest. -/
theorem rests {pending : List Record} (h : start.Sweeping now swept pending site)
    (hrests : site.Rests later) : start.Sweeping now swept pending later where
  coherent := h.coherent.rests hrests
  store := hrests.store.trans h.store
  row := h.row
  nodup := h.nodup
  passed record hmem known hknown := h.passed record hmem known (hrests.cached? hknown)

/-- A row is off the list once its user is closed and the cache shows nothing new of the
others. -/
theorem closed (h : start.Sweeping now swept (record :: rest) site)
    (hclosed : start.Coherent (rest.map Record.userId) (rest.map Record.userId) later)
    (hstore : later.store = site.store)
    (hframe : ∀ user, user ≠ record.userId → ∀ known,
      later.cached? user = some known → site.cached? user = some known) :
    start.Sweeping now swept rest later := by
  have hnodup : record.userId ∉ rest.map Record.userId ∧ (rest.map Record.userId).Nodup :=
    List.nodup_cons.mp h.nodup
  refine ⟨hclosed, hstore.trans h.store,
    fun other hmem => h.row other (List.mem_cons_of_mem record hmem), hnodup.2, ?_⟩
  intro other hmem known hknown
  have hother : other.userId ≠ record.userId :=
    fun heq => hnodup.1 (heq ▸ List.mem_map_of_mem hmem)
  exact h.passed other (List.mem_cons_of_mem record hmem) known
    (hframe other.userId hother known hknown)

end Site.Sweeping

namespace Engine

open Site

variable {outside : Outside} {start site : Site} {now : Moment} {swept : Store}

/-- Spreading a turned row takes it off the list: what the cache shows of its user is no
newer record. -/
theorem propagate_sweeping (hremoves : outside.RemovesWork) {record : Record} {rest : List Record}
    (h : start.Sweeping now swept (record :: rest) site) :
    Ensures (propagate outside now record) site fun _ later =>
      start.Sweeping now swept rest later := by
  have hspread : ∀ looked, start.Sweeping now swept (record :: rest) looked →
      Ensures (do cacheAndSync outside record; broadcast record; release record.userId) looked
        fun _ later => start.Sweeping now swept rest later := by
    intro looked hlooked
    have hrow : looked.store[record.userId]? = some record :=
      hlooked.store ▸ hlooked.row record List.mem_cons_self
    have hbacked : looked.store.Backs record.userId (some record) :=
      Store.backs_some hrow (.refl record)
    refine (cacheAndSync_coherent hremoves hlooked.coherent hbacked).bind fun _ synced hrun => ?_
    obtain ⟨hclosed, hstore, hframe⟩ := hrun
    have hbroadcast := broadcast_coherent hclosed record
    refine hbroadcast.bind fun _ shown hrun => ?_
    obtain ⟨hshown, hstore', hcache⟩ := hrun
    have hsweeping : start.Sweeping now swept rest shown := by
      refine hlooked.closed hshown (hstore'.trans hstore) fun user hne known hknown => ?_
      rw [cached?, hcache] at hknown
      exact hframe user hne known hknown
    exact (release_rests record.userId shown).mono fun _ last hrests => hsweeping.rests hrests
  refine (noteSwept_rests record.userId now site).bind fun _ noted hnoted => ?_
  have hlook := cacheGet_ensures outside record.userId noted
  refine hlook.bind fun found looked hcall => ?_
  obtain ⟨hfades, hfound⟩ := hcall
  have hlooked := (h.rests hnoted).rests hfades.toRests
  split
  · next known =>
    have hpassed := hlooked.passed record List.mem_cons_self known (hfound known rfl)
    rw [if_pos hpassed]
    exact hspread looked hlooked
  · exact hspread looked hlooked

/-- The sweep leaves a node coherent. Every record that it gives back is the row of its user
afterwards, and no do-not-disturb with a deadline. -/
theorem sweep_coherent (hremoves : outside.RemovesWork) (h : start.Coherent [] [] site) :
    Ensures (sweep outside) site fun result later => start.Coherent [] [] later ∧
      ∀ restored, result = .ok restored → ∀ record ∈ restored,
        later.store[record.userId]? = some record ∧ record.manual = false ∧
          record.deadline = none := by
  refine ensures_get_bind ?_
  have hsweep := storeSweep_ensures outside site.clock site
  refine hsweep.bind fun result later hcall => ?_
  obtain ⟨faded, hfades, ⟨rfl, rfl⟩ | ⟨fault, rfl, -, rfl⟩⟩ := hcall
  · show Ensures (do
        (site.turned outside site.clock).forM (propagate outside site.clock)
        pruneSlots site.clock
        return Except.ok (site.turned outside site.clock))
      (faded.withStore (site.store.sweep site.clock)) _
    have hopen := Sweeping.opens h hfades site.clock
    have hspreads := ensures_forM (start.Sweeping site.clock (site.store.sweep site.clock))
      (fun record rest state hstate => propagate_sweeping hremoves hstate) hopen
    refine hspreads.bind fun _ spread hspread => ?_
    refine (pruneSlots_rests site.clock spread).bind fun _ last hrests => ?_
    have hlast := hspread.rests hrests
    refine ensures_pure ⟨hlast.coherent, of_eq_ok fun record hmem => ?_⟩
    constructor
    · rw [hlast.store]
      exact Store.get?_sweep_of_mem_expired h.keyed (mem_turned_iff.mp hmem)
    · obtain ⟨user, row, -, -, rfl⟩ :=
        (Store.mem_expired_iff _ _ _).mp (mem_turned_iff.mp hmem)
      exact ⟨rfl, rfl⟩
  · exact ensures_pure ⟨h.rests hfades.toRests, fun _ => nofun⟩

/-- The sweep of a node leaves it coherent, also where it does nothing because tracking is
disabled. -/
theorem expire_coherent (hremoves : outside.RemovesWork) (h : start.Coherent [] [] site) :
    Ensures (expire outside) site fun result later => start.Coherent [] [] later ∧
      ∀ restored, result = .ok restored → ∀ record ∈ restored,
        later.store[record.userId]? = some record ∧ record.manual = false ∧
          record.deadline = none := by
  refine ensures_get_bind ?_
  split
  · exact ensures_pure ⟨h, of_eq_ok fun record hmem => by cases hmem⟩
  · have hsweep := sweep_coherent hremoves h
    refine hsweep.bind fun result later hrun => ?_
    obtain ⟨hlater, hrows⟩ := hrun
    exact ensures_pure ⟨hlater, fun restored hok => hrows restored (taskResult_eq_ok_iff.mp hok)⟩

/-- Unless the store fails a sweep succeeds, and it restores nothing where tracking is
disabled. -/
theorem expire_succeeds (hstore : ∀ count call, outside.storeFault count call = none)
    (site : Site) :
    Ensures (expire outside) site fun result _ => ∃ restored, result = .ok restored ∧
      restored = if site.settings.enabled then site.turned outside site.clock else [] := by
  refine ensures_get_bind ?_
  split
  · next hdisabled =>
    refine ensures_pure ⟨[], rfl, ?_⟩
    rw [if_neg (by simpa using hdisabled)]
  · next henabled =>
    have hsweep : Ensures (sweep outside) site fun result _ =>
        result = .ok (site.turned outside site.clock) := by
      refine ensures_get_bind ?_
      have hsweep := storeSweep_ensures outside site.clock site
      refine hsweep.bind fun result later hcall => ?_
      obtain ⟨faded, hfades, ⟨rfl, rfl⟩ | ⟨fault, -, hfault, -⟩⟩ := hcall
      · exact rfl
      · rw [hstore] at hfault
        cases hfault
    refine hsweep.bind fun result later hrun => ?_
    subst hrun
    refine ensures_pure ⟨site.turned outside site.clock, rfl, ?_⟩
    rw [if_pos (by simpa using henabled)]

end Engine

end PresenceTracker
