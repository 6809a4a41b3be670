import Std.Data.ExtTreeMap

/-!
# Tables

Finite maps from texts, in ascending order of their keys. Two tables with the same
entries are equal, whatever was done to them in which order.
-/

namespace PresenceTracker

/-- A finite map from texts. -/
abbrev Table (α : Type) := Std.ExtTreeMap String α

namespace Table

variable {α : Type}

/-- What a look-up gives after an entry has been written. -/
theorem get?_insert (table : Table α) (key other : String) (value : α) :
    (table.insert key value)[other]? = if key = other then some value else table[other]? := by
  simp [Std.ExtTreeMap.getElem?_insert]

/-- What a look-up gives after a key has been taken out. -/
theorem get?_erase (table : Table α) (key other : String) :
    (table.erase key)[other]? = if key = other then none else table[other]? := by
  simp [Std.ExtTreeMap.getElem?_erase]

/-- What a look-up gives after every entry has been replaced. -/
theorem get?_map {β : Type} (table : Table α) (replace : String → α → β) (key : String) :
    (table.map replace)[key]? = table[key]?.map (replace key) := by
  simp [Std.ExtTreeMap.getElem?_map]

/-- What a look-up gives after some entries have been dropped. -/
theorem get?_filter (table : Table α) (keeps : String → α → Bool) (key : String) :
    (table.filter keeps)[key]? = table[key]?.filter (keeps key) := by
  simp

/-- A key that a look-up finds is in the table. -/
theorem contains_of_get?_eq_some {table : Table α} {key : String} {value : α}
    (h : table[key]? = some value) : table.contains key = true := by
  rw [Std.ExtTreeMap.contains_eq_isSome_getElem?, h, Option.isSome_some]

/-- A key under which a look-up finds something is a key of the table. -/
theorem mem_of_get?_eq_some {table : Table α} {key : String} {value : α}
    (h : table[key]? = some value) : key ∈ table :=
  contains_of_get?_eq_some h

end Table

end PresenceTracker
