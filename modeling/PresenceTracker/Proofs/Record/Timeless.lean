import PresenceTracker.Event
import PresenceTracker.Proofs.Store.Rows

/-!
# Records without their last activity

Records agree if they are the same once their last activities are set to the epoch. Of the
rules only one looks at the last activity, that which finds a user to be idle. All others give
the same if the last activity is set to the epoch before they are asked or after, and so do
the checks and the operations of the store.
-/

namespace PresenceTracker

/-- The record with its last activity at the epoch. -/
def Record.timeless (record : Record) : Record := { record with lastActivity := 0 }

/-- The event with its last activity at the epoch. -/
def PresenceEvent.timeless (presence : PresenceEvent) : PresenceEvent :=
  { presence with lastActivity := 0 }

/-- The current record with its last activity at the epoch. -/
def Current.timeless (current : Current) : Current :=
  { current with record := current.record.timeless }

/-- The decision with the last activity at the epoch. -/
def Decision.timeless : Decision → Decision
  | keep => keep
  | apply next => apply next.timeless

/-- The rows with their last activities at the epoch. -/
def Store.timeless (store : Store) : Store := store.map fun _ record => record.timeless

namespace Record

variable {record other : Record}

/-- Records agree if they are the same but for the last activity. -/
theorem agreesWith_iff_timeless : record.AgreesWith other ↔ record.timeless = other.timeless := by
  rw [agreesWith_iff]
  cases record
  cases other
  simp [timeless]

/-- Whether a deadline has passed does not depend on the last activity. -/
theorem isExpired_timeless (record : Record) (now : Moment) :
    record.timeless.isExpired now = record.isExpired now := rfl

/-- The check of a record looks at the sign of its last activity only. -/
theorem validate_timeless (h : 0 ≤ record.lastActivity) :
    record.timeless.validate = record.validate := by
  have hnot : ¬record.lastActivity < 0 := Int64.not_lt.mpr h
  have hfault : record.timeless.fault? = record.fault? := by
    unfold fault?
    rw [if_neg hnot]
    rfl
  rw [validate, validate, hfault]

/-- The last activity of a record that may be written is not before the epoch. -/
theorem lastActivity_of_validate (h : record.validate = .ok ()) : 0 ≤ record.lastActivity := by
  rw [validate_eq_ok_iff, fault?] at h
  refine Int64.not_lt.mp fun hnegative => ?_
  rw [if_pos hnegative] at h
  split at h
  · cases h
  · split at h <;> cases h

end Record

namespace Transition

variable {transition : Transition} {current : Current} {now timeout : Moment}

/-- What becomes of a record that comes online depends on the last activity in that field only. -/
theorem setOnline_timeless (record : Record) (manual : Bool) (now : Moment) :
    (setOnline record.timeless manual now).timeless = (setOnline record manual now).timeless := by
  simp only [setOnline, apply_ite Decision.timeless]
  rfl

/-- A transition other than one that finds the user idle decides without looking at the last
activity. -/
theorem decision_timeless (hrule : transition ≠ .away false) :
    (transition.decision current.timeless now timeout).map Decision.timeless =
      (transition.decision current now timeout).map Decision.timeless := by
  cases transition with
  | online manual => exact congrArg Except.ok (setOnline_timeless current.record manual now)
  | activity =>
    simp only [decision, recordActivity, Except.map, apply_ite Decision.timeless]
    rw [Current.timeless, setOnline_timeless]
    rfl
  | openChannel channel =>
    simp only [decision, setChannel, Except.map]
    by_cases honline : (!current.persisted || !current.record.manual && channel.isSome) = true
    · rw [if_pos honline, if_pos (show (!current.timeless.persisted ||
        !current.timeless.record.manual && channel.isSome) = true from honline)]
      rfl
    · rw [if_neg honline, if_neg (show ¬(!current.timeless.persisted ||
        !current.timeless.record.manual && channel.isSome) = true from honline)]
      rfl
  | offline manual =>
    simp only [decision, setOffline, Except.map, apply_ite Decision.timeless]
    rfl
  | away manual =>
    cases manual with
    | false => exact absurd rfl hrule
    | true =>
      simp only [decision, setAway, Except.map, Bool.not_true, Bool.and_false, Bool.false_and,
        Bool.false_eq_true, if_false]
      rfl
  | dndUntil deadline =>
    simp only [decision, setDndUntil]
    split <;> rfl
  | dnd => rfl
  | outOfOffice => rfl
  | reset => rfl

/-- What a transition applies was last active at present, or when the record before it was. -/
theorem lastActivity_eq_of_apply {next : Record}
    (happly : transition.decision current now timeout = .ok (.apply next)) :
    next.lastActivity = now ∨ next.lastActivity = current.record.lastActivity := by
  cases transition with
  | online manual =>
    simp only [decision, setOnline] at happly
    split at happly <;> cases happly
    exact .inl rfl
  | activity =>
    simp only [decision, recordActivity, setOnline] at happly
    split at happly
    · cases happly
      exact .inl rfl
    · split at happly <;> cases happly
      exact .inl rfl
  | openChannel channel =>
    cases happly
    exact .inl rfl
  | offline manual =>
    simp only [decision, setOffline] at happly
    split at happly <;> cases happly
    exact .inl rfl
  | away manual =>
    simp only [decision, setAway] at happly
    split at happly
    · cases happly
    · split at happly <;> cases happly
      exact .inr rfl
  | dndUntil deadline =>
    simp only [decision, setDndUntil] at happly
    split at happly <;> cases happly
    exact .inr rfl
  | dnd => cases happly; exact .inr rfl
  | outOfOffice => cases happly; exact .inr rfl
  | reset => cases happly; exact .inr rfl

/-- What a transition applies was not last active before the epoch, if neither the present nor
the record before it was. -/
theorem lastActivity_of_apply {next : Record} (hnow : 0 ≤ now)
    (hcurrent : 0 ≤ current.record.lastActivity)
    (happly : transition.decision current now timeout = .ok (.apply next)) :
    0 ≤ next.lastActivity := by
  rcases lastActivity_eq_of_apply happly with hpresent | hbefore
  · exact hpresent ▸ hnow
  · exact hbefore ▸ hcurrent

end Transition

namespace Store

variable {store saved : Store}

/-- A row is looked up as before, without its last activity. -/
theorem get?_timeless (store : Store) (user : String) :
    store.timeless[user]? = store[user]?.map Record.timeless :=
  Table.get?_map store _ user

/-- Stores with the same rows but for the last activities are the same without them. -/
theorem timeless_eq_of_get? {store other : Store}
    (h : ∀ user : String, store.timeless[user]? = other[user]?) : store.timeless = other :=
  Std.ExtTreeMap.ext_getElem? h

/-- A row is written without its last activity. -/
theorem timeless_save {record : Record} (h : store.save record = .ok saved) :
    saved.timeless = store.timeless.insert record.userId record.timeless := by
  refine timeless_eq_of_get? fun user => ?_
  rw [get?_timeless, get?_save h, Table.get?_insert, get?_timeless]
  split <;> rfl

/-- To set the last activity of a row cannot be seen. -/
theorem timeless_touch (store : Store) (user : String) (moment : Moment) :
    (store.touch user moment).timeless = store.timeless := by
  refine timeless_eq_of_get? fun other => ?_
  rw [get?_timeless, get?_touch, get?_timeless]
  split
  · cases store[other]? <;> rfl
  · rfl

/-- A row is deleted with or without its last activity. -/
theorem timeless_delete (store : Store) (user : String) :
    (store.delete user).timeless = store.timeless.delete user := by
  refine timeless_eq_of_get? fun other => ?_
  rw [get?_timeless, get?_delete, get?_delete, get?_timeless]
  split <;> rfl

/-- A sweep turns the same rows with or without their last activity. -/
theorem timeless_sweep (store : Store) (now : Moment) :
    (store.sweep now).timeless = store.timeless.sweep now := by
  refine timeless_eq_of_get? fun user => ?_
  rw [get?_timeless, get?_sweep, get?_sweep, get?_timeless, Option.map_map, Option.map_map]
  congr 1
  funext record
  simp only [Function.comp_apply, sweepRow, Record.isExpired_timeless,
    apply_ite Record.timeless]
  rfl

/-- The same rows have passed their deadlines, with or without the last activities. -/
theorem expired_timeless (store : Store) (now : Moment) :
    store.timeless.expired now = (store.expired now).map Record.timeless := by
  have hvalues : store.timeless.values = store.values.map Record.timeless := by
    rw [Table.values_eq, Table.values_eq, timeless, Std.ExtTreeMap.toList_map, List.map_map,
      List.map_map]
    rfl
  rw [expired, expired, hvalues, List.filter_map, List.map_map, List.map_map]
  rfl

end Store

end PresenceTracker
