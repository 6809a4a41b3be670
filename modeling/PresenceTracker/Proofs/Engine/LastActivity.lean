import PresenceTracker.Proofs.Engine.Channel
import PresenceTracker.Proofs.Engine.Sweep

/-!
# The last activity across a sweep

A sweep restores users from the store, whose rows may lack the latest activity: a write of the
activity alone is left out within the window of the last write. So a sweep that finds nothing
newer in the cache than a passed do-not-disturb puts the activity of the row in the place of
the cached one. What the node sees of a user afterwards is given in full, and from it exactly
when the user's last activity is taken back: where a passed do-not-disturb is cached with a
later activity than the row has.
-/

namespace PresenceTracker

namespace Holding

variable {outside : Outside} {user : String} {held later : Holding} {now : Moment}

/-- What a node sees of a user after a sweep at `now`: a passed row is restored, unless the
cache shows a record that has not passed. -/
def swept (now : Moment) (held : Holding) : Option Record :=
  match held.row, held.cached with
  | some row, some known =>
    if row.isExpired now && known.isExpired now then some row.restored else some known
  | some row, none => if row.isExpired now then some row.restored else some row
  | none, known => known

/-- The row has passed at `now`, and the cache shows the same with a later activity. -/
def Lags (now : Moment) (held : Holding) : Prop :=
  ∃ row known, held.row = some row ∧ held.cached = some known ∧ row.isExpired now = true ∧
    known.isExpired now = true ∧ row.lastActivity < known.lastActivity

/-- Where a user is not restored, the node sees the same after a sweep. -/
theorem swept_of_kept (h : ∀ row, held.row = some row → row.isExpired now = false) :
    held.swept now = held.current? := by
  cases hrow : held.row with
  | none => cases hcached : held.cached <;> simp [swept, current?, hrow, hcached]
  | some row => cases hcached : held.cached <;> simp [swept, current?, hrow, hcached, h row hrow]

/-- A sweep leaves what it is said to leave, where the cache works and keeps the entry. -/
theorem Restores.current?_eq (hcache : outside.CacheWorks) (hspares : outside.Spares user)
    (h : held.Restores outside user now later) : later.current? = held.swept now := by
  by_cases hpassed : ∃ row, held.row = some row ∧ row.isExpired now = true
  · obtain ⟨row, hrow, hexpired⟩ := hpassed
    cases h.turned row hrow hexpired with
    | superseded hcached hnewer hfades =>
      have hcached' : held.cached = some _ := hcached
      rw [hfades.eq_of_spares hspares, current?, hcached, Option.some_or]
      simp [swept, hrow, hcached', hnewer]
    | @spread loaded _ hfades hpassed _ hcached _ _ =>
      have hheld := hcached.resolve_right fun hlost => hlost.2 hspares
      rw [current?, hheld, Option.some_or]
      have hpassed := hpassed hcache
      rw [hfades.eq_of_spares hspares] at hpassed
      cases hknown : held.cached with
      | none => simp [swept, hrow, hknown, hexpired]
      | some known => simp [swept, hrow, hknown, hexpired, hpassed known hknown]
  · have hkept : ∀ row, held.row = some row → row.isExpired now = false := fun row hrow =>
      Bool.eq_false_iff.mpr fun hexpired => hpassed ⟨row, hrow, hexpired⟩
    rw [swept_of_kept hkept, (h.kept hkept).eq_of_spares hspares]

/-- A node that sees a user sees the user after a sweep too, and with the same last activity or
a later one exactly if the row did not lag behind the cache. -/
theorem swept_activity (now : Moment) {before : Record} (hbefore : held.current? = some before) :
    ∃ after, held.swept now = some after ∧
      (before.lastActivity ≤ after.lastActivity ↔ ¬held.Lags now) := by
  cases hrow : held.row with
  | none =>
    have hlags : ¬held.Lags now := by
      rintro ⟨row, -, hsome, -⟩
      rw [hrow] at hsome
      cases hsome
    refine ⟨before, ?_, iff_of_true (Int64.le_refl _) hlags⟩
    rw [swept_of_kept fun row hsome => by rw [hrow] at hsome; cases hsome]
    exact hbefore
  | some row =>
    cases hcached : held.cached with
    | none =>
      have hlags : ¬held.Lags now := by
        rintro ⟨-, known, -, hsome, -⟩
        rw [hcached] at hsome
        cases hsome
      rw [current?, hcached, Option.none_or, hrow] at hbefore
      cases hbefore
      refine ⟨if before.isExpired now then before.restored else before, ?_,
        iff_of_true ?_ hlags⟩
      · simp only [swept, hrow, hcached]
        split <;> rfl
      · split <;> exact Int64.le_refl _
    | some known =>
      rw [current?, hcached, Option.some_or] at hbefore
      cases hbefore
      have hlags : held.Lags now ↔ (row.isExpired now && before.isExpired now) = true ∧
          row.lastActivity < before.lastActivity := by
        simp [Lags, hrow, hcached, and_assoc]
      rw [hlags]
      simp only [swept, hrow, hcached]
      split
      · next hpassed =>
        refine ⟨row.restored, rfl, ?_⟩
        rw [hpassed]
        simp only [true_and, Int64.not_lt]
        exact Iff.rfl
      · next hahead =>
        exact ⟨before, rfl, iff_of_true (Int64.le_refl _) fun hlag => hahead hlag.1⟩

end Holding

namespace Site

variable {outside : Outside} {site : Site} {user : String}

/-- A sweep with a working store and a working cache succeeds. A user whom the node sees before
is seen afterwards, and the last activity was not taken back exactly if tracking is disabled or
the row of a passed do-not-disturb did not lag behind the cache. -/
theorem sweep_takes_back_activity_iff (hfiled : site.Filed) (hfaultless : outside.Faultless)
    (hspares : outside.Spares user) :
    Ensures (Engine.expire outside) site fun result later => (∃ restored, result = .ok restored) ∧
      ∀ before, site.current? user = some before → ∃ after, later.current? user = some after ∧
        (before.lastActivity ≤ after.lastActivity ↔
          ¬(site.settings.enabled = true ∧ (site.holding user).Lags site.clock)) := by
  have hrestores := Engine.expire_restores hfaultless.cache.removesWork hfiled
  have hsucceeds := Engine.expire_succeeds hfaultless.store site
  refine (hrestores.and hsucceeds).mono fun result later hcall => ?_
  obtain ⟨⟨-, -, -, hoption⟩, restored, hresult, -⟩ := hcall
  refine ⟨⟨restored, hresult⟩, fun before hbefore => ?_⟩
  rcases hoption with ⟨henabled, -, hrestored⟩ | ⟨hfails, hfades⟩
  · have hseen : (site.holding user).current? = some before := hbefore
    obtain ⟨after, hafter, hactivity⟩ := Holding.swept_activity site.clock hseen
    refine ⟨after, ?_, ?_⟩
    · exact ((hrestored user).current?_eq hfaultless.cache hspares).trans hafter
    · rw [hactivity, henabled]
      simp
  · have hdisabled : ¬site.settings.enabled = true := by
      intro henabled
      obtain ⟨failure, hfailure⟩ := hfails henabled
      rw [hresult] at hfailure
      cases hfailure
    refine ⟨before, ?_, iff_of_true (Int64.le_refl _) fun hlag => hdisabled hlag.1⟩
    show (later.holding user).current? = some before
    rw [(hfades user).eq_of_spares hspares]
    exact hbefore

/-- A user comes online, does not want to be disturbed for a while, is active at a moment of
that while, and the while passes. -/
def activeUndisturbed (moment : Moment) : List Happening :=
  [.operation (.change "ada" (.online true)), .operation (.change "ada" (.dndUntil 345000)),
    .incident (.setClock moment), .operation (.change "ada" .activity),
    .incident (.setClock 345000)]

/-- Activity outside of the window of the last write has been written, and a sweep keeps it. -/
theorem sweep_keeps_written_activity :
    Ensures (Engine.expire .calm) (blank.after .calm (activeUndisturbed 95000)) fun _ later =>
      ∃ after, later.current? "ada" = some after ∧ (95000 : Moment) ≤ after.lastActivity := by
  have hstep : (blank.after .calm (activeUndisturbed 95000)).InStep :=
    blank_inStep.after (fun _ _ => rfl) _
  have hcurrent : (blank.after .calm (activeUndisturbed 95000)).current? "ada" =
      some ⟨"ada", .dnd, true, 95000, none, some .online, some 345000⟩ := by decide +kernel
  have hcached : (blank.after .calm (activeUndisturbed 95000)).cached? "ada" =
      some ⟨"ada", .dnd, true, 95000, none, some .online, some 345000⟩ := by decide +kernel
  have hstored : (blank.after .calm (activeUndisturbed 95000)).store["ada"]? =
      some ⟨"ada", .dnd, true, 95000, none, some .online, some 345000⟩ := by decide +kernel
  refine (sweep_takes_back_activity_iff hstep.filed Outside.calm_faultless
    (Outside.calm_spares "ada")).mono fun result later hcall => ?_
  obtain ⟨after, hafter, hactivity⟩ := hcall.2 _ hcurrent
  refine ⟨after, hafter, hactivity.mpr ?_⟩
  rintro ⟨-, row, known, hrow, hknown, -, -, hlags⟩
  obtain rfl := Option.some.inj (hstored.symm.trans hrow)
  obtain rfl := Option.some.inj (hcached.symm.trans hknown)
  exact Int64.lt_irrefl hlags

/-- Activity within the window of the last write is in the cache only, and a sweep takes it
back. -/
theorem coalesced_activity_taken_back :
    ¬∀ (site : Site) (user : String) (before after : Record), site.InStep →
      site.current? user = some before →
      (site.happen .calm (.operation .expire)).current? user = some after →
      before.lastActivity ≤ after.lastActivity := by
  intro hclaim
  have hstep : (blank.after .calm (activeUndisturbed 55000)).InStep :=
    blank_inStep.after (fun _ _ => rfl) _
  have hbefore : (blank.after .calm (activeUndisturbed 55000)).current? "ada" =
      some ⟨"ada", .dnd, true, 55000, none, some .online, some 345000⟩ := by decide +kernel
  have hafter : ((blank.after .calm (activeUndisturbed 55000)).happen .calm
      (.operation .expire)).current? "ada" =
        some ⟨"ada", .online, false, 5000, none, none, none⟩ := by decide +kernel
  exact absurd (hclaim _ "ada" _ _ hstep hbefore hafter) (by decide)

end Site

end PresenceTracker
