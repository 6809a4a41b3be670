import PresenceTracker.Proofs.Engine.Coalescing

/-!
# Whom a node keeps track of

A slot is all that a node keeps of a user, so slots must neither pile up nor go too early. Over
every run with a steady clock and a constant interval, whichever calls fail, a slot between
operations holds the latest moment at which the node wrote its user's row since it removed the
row, and a user whose latest moment lies less than the interval back has a slot. Right after a
sweep that succeeds no other user has one. While tracking is disabled nothing is removed, and
the slots stay with the rows.
-/

namespace PresenceTracker

namespace Diary.Faithful

variable {site : Site} {diary : Diary} {user : String} {moment : Moment}

/-- A slot holds the latest moment that the diary has of its user. -/
theorem latest_of_slot (h : diary.Faithful site) (hslot : site.slots[user]? = some moment) :
    diary.Latest user moment := by
  have hremains := h.slots user
  rw [hslot] at hremains
  rcases hremains with hsame | ⟨hnone, -⟩
  · exact h.latest user moment hsame.symm
  · cases hnone

/-- A user whose latest moment lies less than an interval back has a slot. -/
theorem slot_of_latest (h : diary.Faithful site) (hlatest : diary.Latest user moment)
    (hopen : site.clock.toInt - moment.toInt < site.settings.minUpdateInterval.toInt) :
    site.slots[user]? = some moment := by
  obtain ⟨hmem, hupper⟩ := hlatest
  have hwindow := (h.windows user site.clock (Int64.le_refl _)).mpr ⟨moment, hmem, hopen⟩
  cases hslot : site.slots[user]? with
  | none =>
    rw [hslot, coalesces_none] at hwindow
    cases hwindow
  | some last =>
    obtain ⟨hlast, hlater⟩ := h.latest_of_slot hslot
    rw [Int64.le_antisymm (hupper last hlast) (hlater moment hmem)]

end Diary.Faithful

namespace Engine

variable {outside : Outside} {site : Site}

/-- After a sweep that succeeds the window of every slot is open. -/
theorem sweep_prunes (outside : Outside) (site : Site) :
    Ensures (sweep outside) site fun result later => result.isOk = true →
      ∀ (user : String) (moment : Moment), later.slots[user]? = some moment →
        coalesces (some moment) site.clock later.settings.minUpdateInterval = true := by
  refine ensures_get_bind ?_
  refine (ensures_run (storeSweep outside site.clock) site).bind fun result swept _ => ?_
  cases result with
  | error fault => exact ensures_pure nofun
  | ok restored =>
    refine (ensures_run (restored.forM (propagate outside site.clock)) swept).bind
      fun _ spread _ => ?_
    have hpruned : Ensures (pruneSlots site.clock) spread fun _ later =>
        ∀ (user : String) (moment : Moment), later.slots[user]? = some moment →
          coalesces (some moment) site.clock later.settings.minUpdateInterval = true := by
      refine ensures_modify fun user moment hslot => ?_
      rw [Table.get?_filter] at hslot
      exact (Option.filter_eq_some_iff.mp hslot).2
    exact hpruned.bind fun _ _ hlast => ensures_pure fun _ => hlast

/-- After a sweep that succeeds while tracking is enabled the window of every slot is open. -/
theorem expire_prunes (henabled : site.settings.enabled = true) :
    Ensures (expire outside) site fun result later => result.isOk = true →
      ∀ (user : String) (moment : Moment), later.slots[user]? = some moment →
        coalesces (some moment) site.clock later.settings.minUpdateInterval = true := by
  refine ensures_get_bind ?_
  rw [henabled, if_neg (by simp)]
  refine (sweep_prunes outside site).bind fun result later hlater => ?_
  match result with
  | .ok restored => exact ensures_pure fun _ => hlater rfl
  | .error (.refused failure) => exact ensures_pure nofun
  | .error .killed => exact ensures_pure nofun

end Engine

namespace Site

/-- Over every run with a steady clock and a constant interval, whichever calls fail, a slot
between operations holds the latest moment at which the node wrote its user's row since it
removed the row; a user whose latest moment lies less than the interval back has a slot; and
right after a sweep that succeeds while tracking is enabled these users are all that have one. -/
theorem tracked_exact (outside : Outside) {start : Site} (hslots : start.slots = ∅)
    (hfiled : start.Filed) {run : List Happening} (hsteady : start.Steady outside run) :
    (∀ (user : String) (moment : Moment),
      (start.after outside run).slots[user]? = some moment →
        (start.diary outside run).Latest user moment) ∧
    (∀ (user : String) (moment : Moment), (start.diary outside run).Latest user moment →
      (start.after outside run).clock.toInt - moment.toInt <
        start.settings.minUpdateInterval.toInt →
      (start.after outside run).slots[user]? = some moment) ∧
    ((start.after outside run).settings.enabled = true →
      ((Engine.expire outside).run (start.after outside run)).1.isOk = true →
      ∀ (user : String) (moment : Moment),
        (start.after outside (run ++ [.operation .expire])).slots[user]? = some moment ↔
          (start.diary outside (run ++ [.operation .expire])).Latest user moment ∧
            (start.after outside run).clock.toInt - moment.toInt <
              start.settings.minUpdateInterval.toInt) := by
  have hinterval := minUpdateInterval_after hfiled hsteady
  have hfaithful : (start.diary outside run).Faithful (start.after outside run) :=
    (Diary.faithful_of_empty hslots).after hfiled hsteady
  refine ⟨fun user moment => hfaithful.latest_of_slot, fun user moment hlatest hopen => ?_,
    fun henabled hok user moment => ?_⟩
  · rw [← hinterval] at hopen
    exact hfaithful.slot_of_latest hlatest hopen
  · have hsame : Ensures (Operation.expire.run outside) (start.after outside run) _ :=
      Operation.expire.run_remembers outside (hfiled.after run)
    have hprunes : Ensures (Engine.expire outside) (start.after outside run) _ :=
      Engine.expire_prunes henabled
    have hswept : (start.diary outside (run ++ [.operation .expire])).Faithful
        (start.after outside (run ++ [.operation .expire])) :=
      (Diary.faithful_of_empty hslots).after hfiled (steady_append.mpr ⟨hsteady, trivial, trivial⟩)
    have happend : start.after outside (run ++ [.operation .expire]) =
        ((Operation.expire.run outside).run (start.after outside run)).2 := List.foldl_append
    rw [← hinterval, ← hsame.settings, ← hsame.clock, ← happend]
    refine ⟨fun hslot => ⟨hswept.latest_of_slot hslot, ?_⟩,
      fun ⟨hlatest, hopen⟩ => hswept.slot_of_latest hlatest hopen⟩
    rw [← coalesces_some_iff, happend, hsame.clock]
    rw [happend] at hslot
    exact hprunes hok user moment hslot

/-- The slot of a user who was active at 71000 is left at 131000, when the interval is over, and
gone after the next sweep. -/
theorem tracked_exact_after_activeRun :
    (fresh.after weary activeRun).slots["ada"]? = some 71000 ∧
      (fresh.diary weary activeRun).Latest "ada" 71000 ∧
      (fresh.after weary (activeRun.take 7)).slots["ada"]? = some 71000 ∧
      (fresh.after weary (activeRun ++ [.operation .expire])).slots["ada"]? ≠ some 71000 := by
  have hfiled : fresh.Filed := (inStep_of_empty Store.keyed_empty rfl).filed
  have hsteady : fresh.Steady weary activeRun := by decide +kernel
  have hslot : (fresh.after weary activeRun).slots["ada"]? = some 71000 := by decide +kernel
  obtain ⟨hholds, -, hswept⟩ := tracked_exact weary rfl hfiled hsteady
  have hearly : fresh.Steady weary (activeRun.take 7) := by decide +kernel
  have hlatest : (fresh.diary weary (activeRun.take 7)).Latest "ada" 71000 := by
    have hmoments : fresh.diary weary (activeRun.take 7) "ada" = [71000, 5000] := by
      decide +kernel
    rw [Diary.Latest, hmoments]
    refine ⟨List.mem_cons_self, fun last hlast => Int64.le_iff_toInt_le.mpr ?_⟩
    obtain rfl | rfl : last = 71000 ∨ last = 5000 := by simpa using hlast
    · decide
    · decide
  obtain ⟨-, htracks, -⟩ := tracked_exact weary rfl hfiled hearly
  refine ⟨hslot, hholds _ _ hslot, htracks _ _ hlatest (by decide +kernel), fun hleft => ?_⟩
  obtain ⟨-, hopen⟩ := (hswept (by decide +kernel) (by decide +kernel) _ _).mp hleft
  revert hopen
  decide +kernel

/-- A removal that succeeds while tracking is disabled leaves the user's slot. -/
theorem tracked_after_removal :
    ¬∀ (outside : Outside) (run : List Happening) (user : String),
      fresh.Steady outside (run ++ [.operation (.remove user)]) →
      (((Operation.remove user).run outside).run (fresh.after outside run)).1.isOk = true →
      (fresh.after outside (run ++ [.operation (.remove user)])).slots[user]? = none := by
  intro hclaim
  have hgone := hclaim .calm [.operation (.change "ada" (.online true)),
    .incident (.configure { enabled := false })] "ada" (by decide +kernel) (by decide +kernel)
  revert hgone
  decide +kernel

end Site

end PresenceTracker
