import PresenceTracker.Proofs.Record.Agreement
import PresenceTracker.Store

/-!
# The rows of a store

A store keeps every row under the user it is about, and all its operations stay with that.
The rows that a sweep gives back are the rows of the store afterwards, at most one for each
user, and each was a passed do-not-disturb before.
-/

namespace PresenceTracker

/-- The values of a table are those of its entries, in order. -/
theorem Table.values_eq {α : Type} (table : Table α) :
    table.values = table.toList.map Prod.snd := by
  have hfold : table.values = table.foldr (fun _ value values => value :: values) [] := rfl
  rw [hfold, Std.ExtTreeMap.foldr_eq_foldr_toList]
  induction table.toList with
  | nil => rfl
  | cons entry rest ih => rw [List.foldr_cons, ih, List.map_cons]

/-- A value of a table stands under some key. -/
theorem Table.mem_values_iff {α : Type} (table : Table α) (value : α) :
    value ∈ table.values ↔ ∃ key : String, table[key]? = some value := by
  rw [values_eq, List.mem_map]
  constructor
  · intro hlisted
    obtain ⟨⟨key, found⟩, hmem, rfl⟩ := hlisted
    exact ⟨key, Std.ExtTreeMap.mem_toList_iff_getElem?_eq_some.mp hmem⟩
  · intro hstored
    obtain ⟨key, hkey⟩ := hstored
    exact ⟨(key, value), Std.ExtTreeMap.mem_toList_iff_getElem?_eq_some.mpr hkey, rfl⟩

namespace Store

/-- Every row has a property, which may speak of the user it stands under. -/
def Every (store : Store) (claim : String → Record → Prop) : Prop :=
  ∀ (user : String) (row : Record), store[user]? = some row → claim user row

namespace Every

variable {store saved : Store} {claim : String → Record → Prop}

/-- A record that is written has to have the property of rows. -/
theorem save (hevery : store.Every claim) {record : Record} (h : store.save record = .ok saved)
    (hrecord : claim record.userId record) : saved.Every claim := by
  intro user row hrow
  rw [get?_save h] at hrow
  split at hrow
  · next huser =>
    cases hrow
    exact huser ▸ hrecord
  · exact hevery user row hrow

/-- A property that does not depend on the last activity is kept when that is set. -/
theorem touch (hevery : store.Every claim) (user : String) (moment : Moment)
    (htouched : ∀ row, claim user row → claim user { row with lastActivity := moment }) :
    (store.touch user moment).Every claim := by
  intro other row hrow
  rw [get?_touch] at hrow
  split at hrow
  · next heq =>
    subst heq
    obtain ⟨before, hbefore, rfl⟩ := Option.map_eq_some_iff.mp hrow
    exact htouched before (hevery user before hbefore)
  · exact hevery other row hrow

/-- A deletion leaves rows that were there before. -/
theorem delete (hevery : store.Every claim) (user : String) : (store.delete user).Every claim := by
  intro other row hrow
  rw [get?_delete] at hrow
  split at hrow
  · cases hrow
  · exact hevery other row hrow

/-- A sweep keeps a property that passes from a row to the restored one. -/
theorem sweep (hevery : store.Every claim) (now : Moment)
    (hrestored : ∀ user row, claim user row → claim user row.restored) :
    (store.sweep now).Every claim := by
  intro user row hrow
  rw [get?_sweep] at hrow
  obtain ⟨before, hbefore, rfl⟩ := Option.map_eq_some_iff.mp hrow
  have hclaim : claim user before := hevery user before hbefore
  unfold sweepRow
  split
  · exact hrestored user before hclaim
  · exact hclaim

end Every

/-- Every row stands under the user it is about, as every write leaves it. -/
def Keyed (store : Store) : Prop :=
  ∀ (user : String) (row : Record), store[user]? = some row → row.userId = user

/-- In an empty store every row stands under its user. -/
theorem keyed_empty : Keyed ∅ := by
  intro user row h
  simp at h

namespace Keyed

variable {store saved : Store}

/-- That rows stand under their users is a property of each row with its key. -/
theorem every (hkeyed : store.Keyed) : store.Every fun user row => row.userId = user := hkeyed

/-- A row may be put under its user. -/
theorem insert (hkeyed : store.Keyed) {user : String} {record : Record}
    (huser : record.userId = user) : Keyed (store.insert user record) := by
  intro other row hrow
  rw [Table.get?_insert] at hrow
  split at hrow
  · next hsame =>
    cases hrow
    exact huser.trans hsame
  · exact hkeyed other row hrow

/-- A record is written under its user. -/
theorem save (hkeyed : store.Keyed) {record : Record} (h : store.save record = .ok saved) :
    saved.Keyed := hkeyed.every.save h rfl

/-- A row stays under its user when its last activity is set. -/
theorem touch (hkeyed : store.Keyed) (user : String) (moment : Moment) :
    (store.touch user moment).Keyed := hkeyed.every.touch user moment fun _ huser => huser

/-- A deletion leaves the other rows under their users. -/
theorem delete (hkeyed : store.Keyed) (user : String) : (store.delete user).Keyed :=
  hkeyed.every.delete user

/-- A row that is turned stays under its user. -/
theorem sweep (hkeyed : store.Keyed) (now : Moment) : (store.sweep now).Keyed :=
  hkeyed.every.sweep now fun _ row huser => (Record.userId_restored row).trans huser

end Keyed

/-- A record that was written passed the check. -/
theorem validate_of_save {store saved : Store} {record : Record}
    (h : store.save record = .ok saved) : record.validate = .ok () := by
  unfold save at h
  cases hvalid : record.validate with
  | ok _ => rfl
  | error failure =>
    rw [hvalid] at h
    cases h

/-- Rows that were asked for are rows of the store. -/
theorem mem_findMany {store : Store} (hkeyed : store.Keyed) {users : List String} {row : Record}
    (h : row ∈ store.findMany users) : store[row.userId]? = some row := by
  obtain ⟨user, -, hrow⟩ := List.mem_filterMap.mp h
  rw [hkeyed user row hrow]
  exact hrow

/-- A row that a sweep gives back was a passed do-not-disturb of the same user before. -/
theorem mem_expired_iff (store : Store) (now : Moment) (restored : Record) :
    restored ∈ store.expired now ↔
      ∃ (user : String) (row : Record), store[user]? = some row ∧ row.isExpired now = true ∧
        restored = row.restored := by
  simp only [expired, List.mem_map, List.mem_filter, Table.mem_values_iff]
  constructor
  · intro hturned
    obtain ⟨row, ⟨⟨user, hrow⟩, hexpired⟩, rfl⟩ := hturned
    exact ⟨user, row, hrow, hexpired, rfl⟩
  · intro hstored
    obtain ⟨user, row, hrow, hexpired, rfl⟩ := hstored
    exact ⟨row, ⟨⟨user, hrow⟩, hexpired⟩, rfl⟩

/-- The users whose rows a sweep gives back are those whose deadline has passed. -/
theorem mem_users_expired_iff {store : Store} (hkeyed : store.Keyed) (now : Moment)
    (user : String) :
    user ∈ (store.expired now).map Record.userId ↔
      ∃ row : Record, store[user]? = some row ∧ row.isExpired now = true := by
  constructor
  · intro hmem
    obtain ⟨restored, hrestored, rfl⟩ := List.mem_map.mp hmem
    obtain ⟨other, row, hrow, hexpired, rfl⟩ := (mem_expired_iff store now restored).mp hrestored
    have huser : row.restored.userId = other := hkeyed other row hrow
    exact ⟨row, huser ▸ hrow, hexpired⟩
  · intro hstored
    obtain ⟨row, hrow, hexpired⟩ := hstored
    refine List.mem_map.mpr ⟨row.restored, ?_, hkeyed user row hrow⟩
    exact (mem_expired_iff store now _).mpr ⟨user, row, hrow, hexpired, rfl⟩

/-- A row that a sweep gives back is the user's row afterwards. -/
theorem get?_sweep_of_mem_expired {store : Store} (hkeyed : store.Keyed) {now : Moment}
    {restored : Record} (h : restored ∈ store.expired now) :
    (store.sweep now)[restored.userId]? = some restored := by
  obtain ⟨user, row, hrow, hexpired, rfl⟩ := (mem_expired_iff store now restored).mp h
  rw [Record.userId_restored, hkeyed user row hrow, get?_sweep, hrow, Option.map_some, sweepRow,
    if_pos hexpired]

/-- A user none of whose rows is given back by a sweep keeps the row. -/
theorem get?_sweep_of_not_mem {store : Store} (hkeyed : store.Keyed) {now : Moment} {user : String}
    (h : user ∉ (store.expired now).map Record.userId) :
    (store.sweep now)[user]? = store[user]? := by
  rw [get?_sweep]
  cases hrow : store[user]? with
  | none => rfl
  | some row =>
    have hkept : row.isExpired now ≠ true := fun hexpired =>
      h ((mem_users_expired_iff hkeyed now user).mpr ⟨row, hrow, hexpired⟩)
    rw [Option.map_some, sweepRow, if_neg hkept]

/-- A sweep gives back at most one row for each user. -/
theorem nodup_expired {store : Store} (hkeyed : store.Keyed) (now : Moment) :
    ((store.expired now).map Record.userId).Nodup := by
  have husers : store.values.map Record.userId = store.keys := by
    rw [Table.values_eq, List.map_map, ← Std.ExtTreeMap.map_fst_toList_eq_keys]
    refine List.map_congr_left fun entry hentry => ?_
    exact hkeyed entry.1 entry.2 (Std.ExtTreeMap.mem_toList_iff_getElem?_eq_some.mp hentry)
  have hnodup : (store.values.map Record.userId).Nodup := by
    rw [husers]
    exact Std.ExtTreeMap.nodup_keys
  rw [expired, List.map_map]
  exact hnodup.sublist (List.filter_sublist.map Record.userId)

/-- A row that a sweep gives back is the only one of its user. -/
theorem filter_expired {store : Store} (hkeyed : store.Keyed) {now : Moment} {restored : Record}
    (h : restored ∈ store.expired now) :
    (store.expired now).filter (fun record => record.userId = restored.userId) = [restored] := by
  have hnodup := nodup_expired hkeyed now
  generalize store.expired now = records at h hnodup
  induction records with
  | nil => cases h
  | cons first rest ih =>
    obtain ⟨hfirst, hrest⟩ : first.userId ∉ rest.map Record.userId ∧
      (rest.map Record.userId).Nodup := List.nodup_cons.mp hnodup
    rcases List.mem_cons.mp h with rfl | hmem
    · have hnone : rest.filter (fun record => record.userId = restored.userId) = [] := by
        refine List.filter_eq_nil_iff.mpr fun record hrecord hsame => hfirst ?_
        exact of_decide_eq_true hsame ▸ List.mem_map_of_mem hrecord
      rw [List.filter_cons_of_pos (by simp), hnone]
    · have hne : ¬first.userId = restored.userId := fun heq =>
        hfirst (heq ▸ List.mem_map_of_mem hmem)
      rw [List.filter_cons_of_neg (by simpa using hne)]
      exact ih hmem hrest

end Store

end PresenceTracker
