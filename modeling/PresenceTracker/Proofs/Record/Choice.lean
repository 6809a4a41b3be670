import PresenceTracker.Proofs.Record.Agreement

/-!
# What a user chose

The state of a record, whether it was chosen, and what belongs to a deadline make up the
choice that the record tells of. A signal that no user chose, such as activity or an open
channel, leaves a chosen state alone: it changes nothing or only what is no part of the
choice. And no transition leaves a do-not-disturb whose deadline has passed, except a signal
that found one.
-/

namespace PresenceTracker

/-- Two records tell of the same choice. -/
structure Record.SameChoice (record other : Record) : Prop where
  /-- The state is the same. -/
  status : record.status = other.status
  /-- Both were chosen, or both inferred. -/
  manual : record.manual = other.manual
  /-- The state that follows a deadline is the same. -/
  restoreTo : record.restoreTo = other.restoreTo
  /-- The deadline is the same. -/
  deadline : record.deadline = other.deadline

namespace Record.SameChoice

variable {first second third : Record}

theorem refl (record : Record) : record.SameChoice record := ⟨rfl, rfl, rfl, rfl⟩

theorem symm (h : first.SameChoice second) : second.SameChoice first :=
  ⟨h.status.symm, h.manual.symm, h.restoreTo.symm, h.deadline.symm⟩

theorem trans (h : first.SameChoice second) (h' : second.SameChoice third) :
    first.SameChoice third :=
  ⟨h.status.trans h'.status, h.manual.trans h'.manual, h.restoreTo.trans h'.restoreTo,
    h.deadline.trans h'.deadline⟩

/-- The last activity and the open channel are no part of the choice. -/
theorem with_place (record : Record) (moment : Moment) (channel : Option String) :
    { record with lastActivity := moment, channel := channel }.SameChoice record :=
  ⟨rfl, rfl, rfl, rfl⟩

/-- Records that agree tell of the same choice. -/
theorem of_agrees (h : first.AgreesWith second) : first.SameChoice second := by
  obtain ⟨-, hstatus, hmanual, -, hrestore, hdeadline⟩ := (agreesWith_iff first second).mp h
  exact ⟨hstatus, hmanual, hrestore, hdeadline⟩

/-- Clients cannot tell records of the same choice apart. -/
theorem differsVisibly_eq (h : first.SameChoice second) : first.differsVisibly second = false := by
  simp [differsVisibly, h.status, h.manual, h.deadline]

end Record.SameChoice

namespace Transition

/-- Whether a transition is a signal and not a choice of the user. -/
def isInferred : Transition → Bool
  | online manual | offline manual | away manual => !manual
  | activity | openChannel _ => true
  | dndUntil _ | dnd | outOfOffice | reset => false

/-- A signal keeps a chosen record, or applies one of the same choice. -/
theorem sameChoice_of_isInferred {transition : Transition} {current : Current}
    {now timeout : Moment} (hinferred : transition.isInferred = true)
    (hpersisted : current.persisted = true) (hmanual : current.record.manual = true) :
    transition.decision current now timeout = .ok .keep ∨
      ∃ next, transition.decision current now timeout = .ok (.apply next) ∧
        next.SameChoice current.record := by
  cases transition with
  | online manual =>
    obtain rfl : manual = false := by simpa [isInferred] using hinferred
    exact .inl (by simp [decision, setOnline, hmanual])
  | activity =>
    refine .inr ⟨{ current.record with lastActivity := now }, ?_, .with_place _ _ _⟩
    simp [decision, recordActivity, hmanual]
  | openChannel channel =>
    refine .inr ⟨{ current.record with channel := channel, lastActivity := now }, ?_,
      .with_place _ _ _⟩
    simp [decision, setChannel, hpersisted, hmanual]
  | offline manual =>
    obtain rfl : manual = false := by simpa [isInferred] using hinferred
    exact .inl (by simp [decision, setOffline, hmanual])
  | away manual =>
    obtain rfl : manual = false := by simpa [isInferred] using hinferred
    exact .inl (by simp [decision, setAway, hmanual])
  | dndUntil deadline => cases hinferred
  | dnd => cases hinferred
  | outOfOffice => cases hinferred
  | reset => cases hinferred

/-- What a signal applies to a chosen record tells of the same choice. -/
theorem sameChoice_of_apply {transition : Transition} {current : Current} {now timeout : Moment}
    {next : Record} (hinferred : transition.isInferred = true)
    (hpersisted : current.persisted = true) (hmanual : current.record.manual = true)
    (happly : transition.decision current now timeout = .ok (.apply next)) :
    next.SameChoice current.record := by
  rcases sameChoice_of_isInferred hinferred hpersisted hmanual with hkeep | ⟨other, hother, hsame⟩
  · rw [hkeep] at happly
    cases happly
  · rw [hother] at happly
    cases happly
    exact hsame

/-- A transition whose clock is not behind `now` leaves a do-not-disturb that has passed at
`now` only if it found one, and then it is activity or the opening of a channel. -/
theorem isExpired_of_apply {transition : Transition} {current : Current}
    {now clock timeout : Moment} {next : Record} (hclock : now ≤ clock)
    (happly : transition.decision current clock timeout = .ok (.apply next))
    (hexpired : next.isExpired now = true) :
    current.record.isExpired now = true ∧ ∃ channel,
      next = { current.record with channel := channel, lastActivity := clock } ∧
      (channel = current.record.channel ∨ transition = .openChannel channel) := by
  have hstatus : next.status = .dnd := by
    simp only [Record.isExpired, Bool.and_eq_true, decide_eq_true_eq] at hexpired
    exact hexpired.1.1
  have honline : ∀ {manual : Bool},
      setOnline current.record manual clock = .apply next → False := by
    intro manual hset
    unfold setOnline at hset
    split at hset <;> cases hset
    cases hstatus
  cases transition with
  | online manual => exact (honline (Except.ok.inj happly)).elim
  | activity =>
    have hset := Except.ok.inj happly
    unfold recordActivity at hset
    split at hset
    · cases hset
      exact ⟨hexpired, current.record.channel, rfl, .inl rfl⟩
    · exact (honline hset).elim
  | openChannel channel =>
    have hset := Except.ok.inj happly
    unfold setChannel at hset
    cases hset
    split at hexpired
    · cases hexpired
    · next hkept =>
      refine ⟨hexpired, channel, ?_, .inr rfl⟩
      rw [if_neg hkept]
  | offline manual =>
    have hset := Except.ok.inj happly
    unfold setOffline at hset
    split at hset <;> cases hset
    cases hstatus
  | away manual =>
    have hset := Except.ok.inj happly
    unfold setAway at hset
    split at hset
    · cases hset
    · split at hset <;> cases hset
      cases hstatus
  | dndUntil deadline =>
    simp only [decision, setDndUntil] at happly
    split at happly
    · cases happly
    · next hahead =>
      cases happly
      have hpassed : deadline ≤ now := by
        simpa [Record.isExpired, Record.moveTo] using hexpired
      simp only [Bool.or_eq_true, decide_eq_true_eq, not_or] at hahead
      exact absurd (Int64.le_trans hpassed hclock) hahead.2
  | dnd =>
    cases happly
    simp [Record.isExpired, Record.moveTo] at hexpired
  | outOfOffice =>
    cases happly
    cases hstatus
  | reset =>
    cases happly
    cases hstatus

end Transition

end PresenceTracker
