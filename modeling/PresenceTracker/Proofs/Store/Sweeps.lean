import PresenceTracker.Proofs.Store.Rows

/-!
# Sweeps one after another

Sweeps at any times, in any order, with nothing written in between. A row is turned by the first
sweep whose time reaches its deadline, and given back by that one only: what a sweep has turned
is no chosen state any more, so that no deadline can pass for it again. All other rows stay as
they are, and in the end only the greatest time counts.
-/

namespace PresenceTracker

/-- What follows a deadline has no deadline that could pass. -/
theorem Record.isExpired_restored (record : Record) (now : Moment) :
    record.restored.isExpired now = false := by
  simp [isExpired, restored]

/-- A deadline that has passed stays passed. -/
theorem Record.isExpired_of_le {record : Record} {now later : Moment} (hle : now ≤ later)
    (h : record.isExpired now = true) : record.isExpired later = true := by
  simp only [isExpired, Bool.and_eq_true, Option.any_eq_true, decide_eq_true_eq] at h ⊢
  obtain ⟨hchosen, deadline, hdeadline, hpassed⟩ := h
  exact ⟨hchosen, deadline, hdeadline, Int64.le_trans hpassed hle⟩

/-- The deadline of a chosen do-not-disturb has passed at a time that reaches it. -/
theorem Record.isExpired_iff {record : Record} {deadline : Moment} (hstatus : record.status = .dnd)
    (hmanual : record.manual = true) (hdeadline : record.deadline = some deadline) (now : Moment) :
    record.isExpired now = true ↔ deadline ≤ now := by
  simp [isExpired, hstatus, hmanual, hdeadline]

namespace Store

/-- What sweeps at several times give back, one after the other, and the rows they leave. -/
def sweeps (store : Store) : List Moment → List (List Record) × Store
  | [] => ([], store)
  | now :: rest =>
    let (given, swept) := (store.sweep now).sweeps rest
    (store.expired now :: given, swept)

variable {store : Store} {user : String} {row : Record}

theorem sweeps_cons (store : Store) (now : Moment) (rest : List Moment) :
    store.sweeps (now :: rest) =
      (store.expired now :: ((store.sweep now).sweeps rest).1, ((store.sweep now).sweeps rest).2) :=
  rfl

/-- Every sweep gives something back, if only nothing. -/
theorem length_sweeps (store : Store) (times : List Moment) :
    (store.sweeps times).1.length = times.length := by
  induction times generalizing store with
  | nil => rfl
  | cons now rest ih => rw [sweeps_cons, List.length_cons, ih, List.length_cons]

/-- Whatever the order of the times, a row is turned exactly if its deadline has passed at one
of them. -/
theorem get?_sweeps (store : Store) (times : List Moment) (user : String) :
    (store.sweeps times).2[user]? = store[user]?.map fun row =>
      if times.any row.isExpired then row.restored else row := by
  induction times generalizing store with
  | nil => simp [sweeps]
  | cons now rest ih =>
    rw [sweeps_cons, ih, get?_sweep, Option.map_map]
    congr 1
    funext row
    have hdone : rest.any row.restored.isExpired = false :=
      List.any_eq_false.mpr fun time _ => by simp [Record.isExpired_restored]
    simp only [Function.comp_apply, sweepRow, List.any_cons]
    by_cases hpassed : row.isExpired now = true
    · simp [hpassed, hdone]
    · simp [hpassed]

/-- The records of one user among those that a sweep gives back. -/
def ofUser (user : String) (given : List Record) : List Record :=
  given.filter fun record => record.userId = user

/-- A sweep gives nothing back of a user whose deadline has not passed. -/
theorem ofUser_expired_of_kept (hkeyed : store.Keyed) {now : Moment}
    (hkept : ∀ row, store[user]? = some row → row.isExpired now = false) :
    ofUser user (store.expired now) = [] := by
  refine List.filter_eq_nil_iff.mpr fun record hrecord hsame => ?_
  have huser : user ∈ (store.expired now).map Record.userId :=
    of_decide_eq_true hsame ▸ List.mem_map_of_mem hrecord
  obtain ⟨row, hrow, hpassed⟩ := (mem_users_expired_iff hkeyed now user).mp huser
  rw [hkept row hrow] at hpassed
  cases hpassed

/-- A sweep gives a row back whose deadline has passed, once and as it is afterwards. -/
theorem ofUser_expired_of_passed (hkeyed : store.Keyed) {now : Moment}
    (hrow : store[user]? = some row) (hpassed : row.isExpired now = true) :
    ofUser user (store.expired now) = [row.restored] := by
  have hgiven : row.restored ∈ store.expired now :=
    (mem_expired_iff store now row.restored).mpr ⟨user, row, hrow, hpassed, rfl⟩
  have huser : row.restored.userId = user := hkeyed user row hrow
  exact huser ▸ filter_expired hkeyed hgiven

/-- Of a user whose deadline passes at none of the times no sweep gives anything back. -/
theorem ofUser_sweeps_of_kept (hkeyed : store.Keyed) {times : List Moment}
    (hkept : ∀ row, store[user]? = some row → ∀ time ∈ times, row.isExpired time = false) :
    ∀ given ∈ (store.sweeps times).1, ofUser user given = [] := by
  induction times generalizing store with
  | nil => exact List.forall_mem_nil _
  | cons now rest ih =>
    have hnow : ∀ row, store[user]? = some row → row.isExpired now = false := fun row hrow =>
      hkept row hrow now List.mem_cons_self
    rw [sweeps_cons]
    refine List.forall_mem_cons.mpr ⟨ofUser_expired_of_kept hkeyed hnow, ?_⟩
    refine ih (hkeyed.sweep now) fun row hrow time htime => ?_
    rw [get?_sweep] at hrow
    obtain ⟨before, hbefore, rfl⟩ := Option.map_eq_some_iff.mp hrow
    rw [sweepRow, hnow before hbefore]
    exact hkept before hbefore time (List.mem_cons_of_mem now htime)

/-- What sweeps at some times do to the row of a user. -/
structure TurnsOnce (store : Store) (times : List Moment) (user : String) (row : Record)
    (deadline : Moment) (place : Nat) : Prop where
  /-- The time of one sweep reaches the deadline. -/
  reached : ∃ now, times[place]? = some now ∧ deadline ≤ now
  /-- It is the first such time. -/
  first : ∀ earlier < place, ∀ time, times[earlier]? = some time → time < deadline
  /-- That sweep gives the row back, with the state that follows the deadline and without
  anything that belongs to a do-not-disturb. -/
  given : ((store.sweeps times).1[place]?).map (ofUser user) =
    some [{ row with
      status := row.restoreTo.getD .offline
      manual := false
      restoreTo := none
      deadline := none }]
  /-- No other sweep gives anything back of the user. -/
  only : ∀ other ≠ place, ∀ given, (store.sweeps times).1[other]? = some given →
    ofUser user given = []

/-- The first sweep whose time reaches the deadline of a row turns it, and only that one. -/
theorem turnsOnce_of_passed (hkeyed : store.Keyed) {times : List Moment} {deadline : Moment}
    (hrow : store[user]? = some row) (hstatus : row.status = .dnd) (hmanual : row.manual = true)
    (hdeadline : row.deadline = some deadline) (hreached : ∃ now ∈ times, deadline ≤ now) :
    ∃ place, store.TurnsOnce times user row deadline place := by
  have hpasses := Record.isExpired_iff hstatus hmanual hdeadline
  induction times generalizing store with
  | nil =>
    obtain ⟨now, hmem, -⟩ := hreached
    cases hmem
  | cons now rest ih =>
    by_cases hnow : deadline ≤ now
    · have hpassed : row.isExpired now = true := (hpasses now).mpr hnow
      -- From here on the row is what follows the deadline, which no sweep turns.
      have hdone : ∀ later, (store.sweep now)[user]? = some later → ∀ time ∈ rest,
          later.isExpired time = false := by
        intro later hlater time _
        rw [get?_sweep, hrow, Option.map_some, sweepRow, if_pos hpassed] at hlater
        cases hlater
        exact row.isExpired_restored time
      have hothers := ofUser_sweeps_of_kept (hkeyed.sweep now) hdone
      have hfirst : ∀ earlier < 0, ∀ time, (now :: rest)[earlier]? = some time → time < deadline :=
        fun earlier hearlier => absurd hearlier (Nat.not_lt_zero earlier)
      refine ⟨0, ⟨now, rfl, hnow⟩, hfirst, ?_, fun other hother given hgiven => ?_⟩
      · exact congrArg some (ofUser_expired_of_passed hkeyed hrow hpassed)
      · cases other with
        | zero => exact absurd rfl hother
        | succ other => exact hothers given (List.mem_of_getElem? hgiven)
    · have hkept : row.isExpired now = false := Bool.eq_false_iff.mpr fun hpassed =>
        hnow ((hpasses now).mp hpassed)
      have hstays : (store.sweep now)[user]? = some row := by
        rw [get?_sweep, hrow, Option.map_some, sweepRow, hkept]
        rfl
      have hlater : ∃ time ∈ rest, deadline ≤ time := by
        obtain ⟨time, hmem, hle⟩ := hreached
        rcases List.mem_cons.mp hmem with rfl | hrest
        · exact absurd hle hnow
        · exact ⟨time, hrest, hle⟩
      obtain ⟨place, hturns⟩ := ih (hkeyed.sweep now) hstays hlater
      refine ⟨place + 1, hturns.reached, fun earlier hearlier time htime => ?_, hturns.given,
        fun other hother given hgiven => ?_⟩
      · cases earlier with
        | zero =>
          cases htime
          exact Int64.not_le.mp hnow
        | succ earlier => exact hturns.first earlier (Nat.lt_of_succ_lt_succ hearlier) time htime
      · cases other with
        | zero =>
          cases hgiven
          refine ofUser_expired_of_kept hkeyed fun found hfound => ?_
          rw [hrow] at hfound
          cases hfound
          exact hkept
        | succ other =>
          exact hturns.only other (fun heq => hother (congrArg (· + 1) heq)) given hgiven

/-- What sweeps at some times do to a store. -/
structure SweptOnce (store : Store) (times : List Moment) : Prop where
  /-- Every sweep gives something back, if only nothing. -/
  answered : (store.sweeps times).1.length = times.length
  /-- A chosen do-not-disturb whose deadline is at or before one of the times is turned by the
  first sweep that reaches it, and by that one only. -/
  turned : ∀ (user : String) (row : Record) (deadline : Moment), store[user]? = some row →
    row.status = .dnd → row.manual = true → row.deadline = some deadline →
      (∃ now ∈ times, deadline ≤ now) → ∃ place, store.TurnsOnce times user row deadline place
  /-- Nothing else is given back, and no other row is changed. -/
  kept : ∀ user : String, (∀ (row : Record) (deadline : Moment), store[user]? = some row →
      row.status = .dnd → row.manual = true → row.deadline = some deadline →
        ∀ now ∈ times, now < deadline) →
    (∀ given ∈ (store.sweeps times).1, ofUser user given = []) ∧
      (store.sweeps times).2[user]? = store[user]?
  /-- In the end the rows are those that a single sweep at the greatest time leaves. -/
  final : ∀ last ∈ times, (∀ time ∈ times, time ≤ last) →
    (store.sweeps times).2 = store.sweep last

/-- Sweeps at any times, in any order, with nothing written in between, turn every row once
whose deadline is at or before one of them, and leave what the last of the times alone
demands. -/
theorem swept_once (store : Store) (hkeyed : store.Keyed) (times : List Moment) :
    store.SweptOnce times where
  answered := store.length_sweeps times
  turned user row deadline hrow hstatus hmanual hdeadline hreached :=
    turnsOnce_of_passed hkeyed hrow hstatus hmanual hdeadline hreached
  kept user hahead := by
    have hkept : ∀ row, store[user]? = some row → ∀ time ∈ times, row.isExpired time = false := by
      intro row hrow time htime
      refine Bool.eq_false_iff.mpr fun hpassed => ?_
      simp only [Record.isExpired, Bool.and_eq_true, decide_eq_true_eq, Option.any_eq_true]
        at hpassed
      obtain ⟨⟨hstatus, hmanual⟩, deadline, hdeadline, hle⟩ := hpassed
      exact Int64.not_le.mpr (hahead row deadline hrow hstatus hmanual hdeadline time htime) hle
    refine ⟨ofUser_sweeps_of_kept hkeyed hkept, ?_⟩
    rw [get?_sweeps]
    cases hrow : store[user]? with
    | none => rfl
    | some row =>
      have hnone : ¬times.any row.isExpired = true := fun hany => by
        obtain ⟨time, htime, hpassed⟩ := List.any_eq_true.mp hany
        rw [hkept row hrow time htime] at hpassed
        cases hpassed
      rw [Option.map_some, if_neg hnone]
  final last hlast hgreatest := by
    refine Std.ExtTreeMap.ext_getElem? fun user => ?_
    rw [get?_sweeps, get?_sweep]
    congr 1
    funext row
    have hsame : times.any row.isExpired = row.isExpired last := by
      refine Bool.eq_iff_iff.mpr ⟨fun hany => ?_, fun hpassed => ?_⟩
      · obtain ⟨time, htime, hpassed⟩ := List.any_eq_true.mp hany
        exact Record.isExpired_of_le (hgreatest time htime) hpassed
      · exact List.any_eq_true.mpr ⟨last, hlast, hpassed⟩
    rw [hsame, sweepRow]

/-- Rows with an early deadline, a late one and none. -/
def threeRows : Store :=
  (((∅ : Store).insert "ada" ⟨"ada", .dnd, true, 10, some "town", some .away, some 4000⟩).insert
    "bob" ⟨"bob", .dnd, true, 20, none, none, some 6000⟩).insert
      "eve" ⟨"eve", .dnd, true, 30, none, none, none⟩

/-- Of four sweeps in disorder the second turns the row with the early deadline and the third
the one with the late deadline; in the end the rows are those that the third alone leaves. -/
theorem swept_once_in_disorder :
    threeRows.Keyed ∧ threeRows.SweptOnce [3000, 5000, 9000, 4000] ∧
      (threeRows.sweeps [3000, 5000, 9000, 4000]).1 =
        [[], [⟨"ada", .away, false, 10, some "town", none, none⟩],
          [⟨"bob", .offline, false, 20, none, none, none⟩], []] ∧
      (threeRows.sweeps [3000, 5000, 9000, 4000]).2 = threeRows.sweep 9000 := by
  have hkeyed : threeRows.Keyed := by
    unfold threeRows
    refine Keyed.insert (Keyed.insert (Keyed.insert keyed_empty ?_) ?_) ?_ <;> rfl
  have hswept := swept_once threeRows hkeyed [3000, 5000, 9000, 4000]
  exact ⟨hkeyed, hswept, by decide +kernel, hswept.final 9000 (by decide) (by simp)⟩

end Store

end PresenceTracker
