import PresenceTracker.Transition

/-!
# The shape of records

What the rules make of records has more structure than a check of a single record asks for:
a deadline and the state that follows it come together, and only with a chosen
do-not-disturb; a do-not-disturb is always chosen, and online never is. The shape is kept
because it is strong enough to speak about the state that follows a deadline, which a
passed deadline turns into the live state and a new deadline hands on.
-/

namespace PresenceTracker

/-- The shape of the records that the rules make. -/
structure Record.Shaped (record : Record) : Prop where
  /-- A deadline and the state that follows it come together. -/
  paired : record.deadline.isSome = record.restoreTo.isSome
  /-- A deadline belongs to a chosen do-not-disturb and lies after the epoch. -/
  timed : ∀ deadline, record.deadline = some deadline →
    record.status = .dnd ∧ record.manual = true ∧ 0 < deadline
  /-- What follows a deadline is no do-not-disturb. -/
  follows : record.restoreTo ≠ some .dnd
  /-- A do-not-disturb is chosen. -/
  chosen : record.status = .dnd → record.manual = true
  /-- Online is not chosen. -/
  inferred : record.status = .online → record.manual = false

/-- A property of records that the default record has, and that is kept by activity, by
passed deadlines and by every transition. -/
structure Record.Hereditary (holds : Record → Prop) : Prop where
  /-- The default record has it. -/
  default : ∀ user, holds (.offlineDefault user)
  /-- A new last activity keeps it. -/
  activity : ∀ record moment, holds record → holds { record with lastActivity := moment }
  /-- A passed deadline keeps it. -/
  restored : ∀ record, holds record → holds record.restored
  /-- A transition keeps it. -/
  applied : ∀ (transition : Transition) current now timeout next, holds current.record →
    transition.decision current now timeout = .ok (.apply next) → holds next

/-- A property of rows and one of cached records that are handed on by everything that makes
records at time `now`. A row has both. -/
structure Record.Lineage (now : Moment) (stored cached : Record → Prop) : Prop where
  /-- A row has what a cached record has. -/
  weaker : ∀ record, stored record → cached record
  /-- The default record of a user whose identifier is good has what a cached record has. -/
  default : ∀ user, Record.checkUser user = .ok () → cached (.offlineDefault user)
  /-- A passed deadline leaves a row what it has. -/
  restored : ∀ record, stored record → stored record.restored
  /-- A record that takes a full write and passes the check has what a row has. -/
  saved : ∀ (transition : Transition) current timeout next, cached current.record →
    transition.decision current now timeout = .ok (.apply next) →
      current.needsFullSave next = true → next.validate = .ok () → stored next
  /-- Another record that takes none has what a row has, and so has a row with its activity. -/
  touched : ∀ (transition : Transition) current timeout next, cached current.record →
    transition.decision current now timeout = .ok (.apply next) →
      current.needsFullSave next = false → next ≠ current.record →
        stored next ∧ ∀ row, stored row → stored { row with lastActivity := next.lastActivity }

/-- A property that is handed on at all times is so for rows and for cached records. -/
theorem Record.Hereditary.lineage {holds : Record → Prop} (h : Record.Hereditary holds)
    (now : Moment) : Record.Lineage now holds holds where
  weaker _ hrecord := hrecord
  default user _ := h.default user
  restored := h.restored
  saved transition current timeout next hcurrent hdecision _ _ :=
    h.applied transition current now timeout next hcurrent hdecision
  touched transition current timeout next hcurrent hdecision _ _ :=
    ⟨h.applied transition current now timeout next hcurrent hdecision,
      fun row hrow => h.activity row next.lastActivity hrow⟩

namespace Record.Shaped

variable {record : Record}

theorem offlineDefault (user : String) : (Record.offlineDefault user).Shaped :=
  ⟨rfl, nofun, nofun, nofun, nofun⟩

/-- The shape says nothing of the last activity and the open channel. -/
theorem with_place (h : record.Shaped) (moment : Moment) (channel : Option String) :
    { record with lastActivity := moment, channel := channel }.Shaped :=
  ⟨h.paired, h.timed, h.follows, h.chosen, h.inferred⟩

/-- Moving to a state gives a record of the shape if a do-not-disturb is chosen and online is
not. -/
theorem moveTo (record : Record) (status : Status) (manual : Bool)
    (hchosen : status = .dnd → manual = true) (hinferred : status = .online → manual = false) :
    (record.moveTo status manual).Shaped :=
  ⟨rfl, nofun, nofun, hchosen, hinferred⟩

/-- A passed deadline leaves a record of the shape: what follows is no do-not-disturb. -/
theorem restored (h : record.Shaped) : record.restored.Shaped := by
  refine ⟨rfl, nofun, nofun, fun hstatus => ?_, fun _ => rfl⟩
  cases hrestore : record.restoreTo with
  | none => simp [Record.restored, hrestore] at hstatus
  | some status =>
    have hdnd : status = .dnd := by simpa [Record.restored, hrestore] using hstatus
    exact absurd (hdnd ▸ hrestore) h.follows

/-- What is to follow a new deadline is no do-not-disturb, also if a deadline is set anew. -/
theorem restoreTarget_ne (h : record.Shaped) : Transition.restoreTarget record ≠ .dnd := by
  unfold Transition.restoreTarget
  split
  · cases hrestore : record.restoreTo with
    | none => simp
    | some status =>
      intro hdnd
      have hstatus : status = .dnd := by simpa using hdnd
      exact h.follows (hstatus ▸ hrestore)
  · next hother => exact hother

theorem setOnline {manual : Bool} {now : Moment} {next : Record}
    (happly : Transition.setOnline record manual now = .apply next) : next.Shaped := by
  unfold Transition.setOnline at happly
  split at happly
  · cases happly
  · cases happly
    exact (moveTo record .online false nofun fun _ => rfl).with_place now _

theorem setDndUntil (h : record.Shaped) {deadline now : Moment} {next : Record}
    (happly : Transition.setDndUntil record deadline now = .ok (.apply next)) : next.Shaped := by
  unfold Transition.setDndUntil at happly
  split at happly
  · cases happly
  · next hahead =>
    cases happly
    refine ⟨rfl, fun moment hmoment => ?_, fun hfollows => ?_, fun _ => rfl, nofun⟩
    · cases hmoment
      refine ⟨rfl, rfl, ?_⟩
      simp only [Bool.or_eq_true, decide_eq_true_eq, not_or] at hahead
      exact Int64.not_le.mp hahead.1
    · exact h.restoreTarget_ne (Option.some.inj hfollows)

/-- Every transition applies only records of the shape. -/
theorem apply {transition : Transition} {current : Current} {now timeout : Moment} {next : Record}
    (h : current.record.Shaped)
    (hdecision : transition.decision current now timeout = .ok (.apply next)) : next.Shaped := by
  cases transition with
  | online manual => exact setOnline (Except.ok.inj hdecision)
  | activity =>
    have happly := Except.ok.inj hdecision
    unfold Transition.recordActivity at happly
    split at happly
    · cases happly
      exact h.with_place now _
    · exact setOnline happly
  | openChannel channel =>
    have happly := Except.ok.inj hdecision
    unfold Transition.setChannel at happly
    cases happly
    split
    · exact (moveTo current.record .online false nofun fun _ => rfl).with_place now channel
    · exact h.with_place now channel
  | offline manual =>
    have happly := Except.ok.inj hdecision
    unfold Transition.setOffline at happly
    split at happly
    · cases happly
    · cases happly
      exact (moveTo current.record .offline manual nofun nofun).with_place now none
  | away manual =>
    have happly := Except.ok.inj hdecision
    unfold Transition.setAway at happly
    split at happly
    · cases happly
    · split at happly
      · cases happly
      · cases happly
        exact (moveTo current.record .away manual nofun nofun).with_place _ none
  | dndUntil deadline => exact h.setDndUntil hdecision
  | dnd =>
    cases Except.ok.inj hdecision
    exact moveTo current.record .dnd true (fun _ => rfl) nofun
  | outOfOffice =>
    cases Except.ok.inj hdecision
    exact moveTo current.record .outOfOffice true nofun nofun
  | reset =>
    cases Except.ok.inj hdecision
    exact (moveTo current.record .offline false nofun nofun).with_place _ none

/-- The shape is handed on by everything that makes records. -/
theorem hereditary : Hereditary Record.Shaped where
  default := offlineDefault
  activity record moment h := h.with_place moment record.channel
  restored _ h := h.restored
  applied _ _ _ _ _ h hdecision := h.apply hdecision

end Record.Shaped

end PresenceTracker
