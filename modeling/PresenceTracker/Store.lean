import PresenceTracker.Record
import PresenceTracker.Table

/-!
# The store of records

The durable rows, one for each user. A full write checks the record first. The sweep for
passed deadlines turns every row whose deadline is at or before a time into the state that
follows, and gives back the rows it turned. They are listed by their users here; in which order
a store gives them back is up to the store.
-/

namespace PresenceTracker

/-- The durable rows, by user. -/
abbrev Store := Table Record

namespace Store

/-- The row of a user. -/
def find (store : Store) (user : String) : Except Failure Record :=
  match store[user]? with
  | some record => .ok record
  | none => .error (.noStatus user)

/-- The rows of several users in the order asked for, repetitions included. Users without
a row are left out. -/
def findMany (store : Store) (users : List String) : List Record :=
  users.filterMap fun user => store[user]?

/-- Writes a whole row. -/
def save (store : Store) (record : Record) : Except Failure Store :=
  record.validate.map fun _ => store.insert record.userId record

/-- Sets the last activity of a row that exists, without checking it. -/
def touch (store : Store) (user : String) (moment : Moment) : Store :=
  match store[user]? with
  | some record => store.insert user { record with lastActivity := moment }
  | none => store

/-- A row after a sweep at time `now`. -/
def sweepRow (now : Moment) (record : Record) : Record :=
  if record.isExpired now then record.restored else record

/-- The rows that a sweep at time `now` turns, as they are afterwards. -/
def expired (store : Store) (now : Moment) : List Record :=
  (store.values.filter fun record => record.isExpired now).map Record.restored

/-- Turns every row whose deadline is at or before `now`. -/
def sweep (store : Store) (now : Moment) : Store := store.map fun _ record => sweepRow now record

/-- Deletes the row of a user, if there is one. -/
def delete (store : Store) (user : String) : Store := store.erase user

/-- A read finds the row that stands under the user, if there is one. -/
theorem find_eq_ok_iff (store : Store) (user : String) (record : Record) :
    store.find user = .ok record ↔ store[user]? = some record := by
  unfold find
  split <;> simp_all

/-- What stands under a user after a sweep. -/
theorem get?_sweep (store : Store) (now : Moment) (user : String) :
    (store.sweep now)[user]? = store[user]?.map (sweepRow now) := by
  simp [sweep, Std.ExtTreeMap.getElem?_map]

/-- What stands under a user after the last activity of one has been set. -/
theorem get?_touch (store : Store) (user other : String) (moment : Moment) :
    (store.touch user moment)[other]? =
      if user = other then store[other]?.map fun record => { record with lastActivity := moment }
      else store[other]? := by
  unfold touch
  split
  · next record h =>
    rw [Table.get?_insert]
    split
    · next hu => simp [← hu, h]
    · rfl
  · next h =>
    split
    · next hu => simp [← hu, h]
    · rfl

/-- What stands under a user after a row has been written. -/
theorem get?_save {store saved : Store} {record : Record} (h : store.save record = .ok saved)
    (user : String) :
    saved[user]? = if record.userId = user then some record else store[user]? := by
  unfold save at h
  cases hv : record.validate with
  | error failure => simp [hv, Except.map] at h
  | ok _ =>
    simp only [hv, Except.map, Except.ok.injEq] at h
    rw [← h, Table.get?_insert]

/-- What stands under a user after one has been deleted. -/
theorem get?_delete (store : Store) (user other : String) :
    (store.delete user)[other]? = if user = other then none else store[other]? :=
  Table.get?_erase store user other

end Store

end PresenceTracker
