import PresenceTracker.Event
import PresenceTracker.Proofs.Store.Rows

/-!
# What a node may know of a user

What a cache shows of a user is backed by the store if it shows nothing or a record that
agrees with the user's row. An event of another node changes what is known: an update puts
its record in the place of what was known of its user, and an invalidation leaves nothing.
So a sequence of events either decides alone what is known of a user in the end, or it
passes everything on.
-/

namespace PresenceTracker

namespace Store

/-- What is known of a user is nothing or agrees with the user's row. -/
def Backs (store : Store) (user : String) (known : Option Record) : Prop :=
  ∀ record, known = some record → ∃ row, store[user]? = some row ∧ record.AgreesWith row

theorem backs_none (store : Store) (user : String) : store.Backs user none := fun _ => nofun

/-- A record that agrees with the row is backed. -/
theorem backs_some {store : Store} {user : String} {record row : Record}
    (hrow : store[user]? = some row) (h : record.AgreesWith row) :
    store.Backs user (some record) := by
  intro other hother
  cases hother
  exact ⟨row, hrow, h⟩

/-- What was backed by one row is backed by a row that agrees with it. -/
theorem Backs.of_rows {store later : Store} {user : String} {known : Option Record}
    (h : store.Backs user known)
    (hrows : ∀ row, store[user]? = some row → ∃ row', later[user]? = some row' ∧
      row.AgreesWith row') : later.Backs user known := by
  intro record hrecord
  obtain ⟨row, hrow, hagrees⟩ := h record hrecord
  obtain ⟨row', hrow', hagrees'⟩ := hrows row hrow
  exact ⟨row', hrow', hagrees.trans hagrees'⟩

end Store

/-- What a node with a cache of a topic knows of a user after it has handled an event. -/
def Event.leaves (topic : Topic) (user : String) (known : Option Record) : Event → Option Record
  | .updateStatus record => if record.userId = user then some record else known
  | .presenceChanged _ => known
  | .invalidateCache other key =>
    if other = topic ∧ (key = none ∨ key = some user) then none else known

/-- What a node knows of a user after it has handled events in order. -/
def Event.leavesAll (topic : Topic) (user : String) (known : Option Record)
    (events : List Event) : Option Record :=
  events.foldl (Event.leaves topic user) known

namespace Event

theorem leavesAll_cons (topic : Topic) (user : String) (known : Option Record) (event : Event)
    (rest : List Event) :
    leavesAll topic user known (event :: rest) =
      leavesAll topic user (event.leaves topic user known) rest := rfl

theorem leavesAll_concat (topic : Topic) (user : String) (known : Option Record)
    (events : List Event) (event : Event) :
    leavesAll topic user known (events ++ [event]) =
      event.leaves topic user (leavesAll topic user known events) := by
  simp [leavesAll]

theorem leavesAll_append (topic : Topic) (user : String) (known : Option Record)
    (events others : List Event) :
    leavesAll topic user known (events ++ others) =
      leavesAll topic user (leavesAll topic user known events) others := by
  simp [leavesAll]

/-- An event decides alone what is known of a user, or passes on what was known. -/
theorem leaves_decides_or_passes (topic : Topic) (user : String) (event : Event) :
    (∃ outcome, ∀ known, event.leaves topic user known = outcome) ∨
      ∀ known, event.leaves topic user known = known := by
  cases event with
  | updateStatus record =>
    by_cases huser : record.userId = user
    · exact .inl ⟨some record, fun known => by simp [leaves, huser]⟩
    · exact .inr fun known => by simp [leaves, huser]
  | presenceChanged presence => exact .inr fun known => rfl
  | invalidateCache other key =>
    by_cases hkey : other = topic ∧ (key = none ∨ key = some user)
    · exact .inl ⟨none, fun known => by simp [leaves, hkey]⟩
    · exact .inr fun known => by simp only [leaves, if_neg hkey]

/-- A sequence of events decides alone what is known of a user, or passes on what was
known. -/
theorem leavesAll_decides_or_passes (topic : Topic) (user : String) (events : List Event) :
    (∃ outcome, ∀ known, leavesAll topic user known events = outcome) ∨
      ∀ known, leavesAll topic user known events = known := by
  induction events with
  | nil => exact .inr fun known => rfl
  | cons event rest ih =>
    rcases ih with ⟨outcome, hrest⟩ | hrest
    · exact .inl ⟨outcome, fun known => hrest _⟩
    · rcases leaves_decides_or_passes topic user event with ⟨outcome, hevent⟩ | hevent
      · exact .inl ⟨outcome, fun known => (hrest _).trans (hevent known)⟩
      · exact .inr fun known => (hrest _).trans (hevent known)

end Event

/-- After events, what is known is backed if it was and if any row that may have filled a gap
is the present one. -/
theorem Store.Backs.leavesAll_of_refill {store : Store} {topic : Topic} {user : String}
    {known refilled : Option Record} {events : List Event}
    (h : store.Backs user (Event.leavesAll topic user known events))
    (hrefilled : ∀ record, refilled = some record →
      known = some record ∨ store[user]? = some record) :
    store.Backs user (Event.leavesAll topic user refilled events) := by
  rcases Event.leavesAll_decides_or_passes topic user events with ⟨outcome, hdecides⟩ | hpasses
  · rw [hdecides] at h ⊢
    exact h
  · rw [hpasses] at h ⊢
    intro record hrecord
    rcases hrefilled record hrecord with hknown | hrow
    · exact h record hknown
    · exact ⟨record, hrow, .refl record⟩

end PresenceTracker
