import PresenceTracker.Transition

/-!
# Rules that are settled after one step

A rule that has made a record makes nothing else of it at the same time: it keeps the record, or
makes the same record once more. The rules read what they have written themselves, such as the
state that a deadline gives back or the channel, and a user nobody had recorded has a record by
then. So what a transition comes to is settled after one step.
-/

namespace PresenceTracker

namespace Current

/-- What replacing the current record comes to: nothing if it is stored and the same, a failure if
a full write is needed and the next record fails the check, and otherwise the next record. -/
def replacement (current : Current) (next : Record) : Except Failure (Option Record) :=
  if current.persisted && next = current.record then .ok none
  else if current.needsFullSave next then next.validate.map fun _ => some next
  else .ok (some next)

/-- A stored record is not replaced by itself. -/
theorem replacement_self (record : Record) : replacement ⟨record, true⟩ record = .ok none :=
  if_pos (by simp)

theorem eq_of_replacement {current : Current} {next record : Record}
    (h : current.replacement next = .ok (some record)) : next = record := by
  unfold replacement at h
  split at h
  · cases h
  · split at h
    · cases hcheck : next.validate with
      | error failure =>
        rw [hcheck] at h
        cases h
      | ok _ =>
        rw [hcheck] at h
        cases h
        rfl
    · cases h
      rfl

end Current

namespace Transition

section Rules

variable {record next : Record} {manual : Bool} {now timeout : Moment}

theorem setOnline_again (h : setOnline record manual now = .apply next) :
    setOnline next manual now = .apply next := by
  unfold setOnline at h
  split at h
  · cases h
  · cases h
    simp [setOnline, Record.moveTo]

theorem recordActivity_again (h : recordActivity record now = .apply next) :
    recordActivity next now = .apply next := by
  unfold recordActivity at h
  split at h
  · next hrefreshes =>
    cases h
    exact if_pos hrefreshes
  · unfold setOnline at h
    split at h
    · cases h
    · cases h
      simp [recordActivity, Record.moveTo]

/-- Whoever has been brought online by a channel is online by then, and stays so. -/
theorem setChannel_again {current : Current} {channel : Option String}
    (h : setChannel current channel now = .apply next) :
    setChannel ⟨next, true⟩ channel now = .apply next := by
  unfold setChannel at h ⊢
  cases h
  split
  · cases channel <;> simp [Record.moveTo]
  · next hstays =>
    have hcomes : ¬(!current.record.manual && channel.isSome) = true := fun hcomes =>
      hstays (by rw [hcomes, Bool.or_true])
    simp only [Bool.not_true, Bool.false_or, if_neg hcomes]

theorem setOffline_again (h : setOffline record manual now = .apply next) :
    setOffline next manual now = .apply next := by
  unfold setOffline at h
  split at h
  · cases h
  · cases h
    simp [setOffline, Record.moveTo]

/-- A user who has been found to be idle is away by then, and stays so. -/
theorem setAway_again (h : setAway record manual now timeout = .apply next) :
    setAway next manual now timeout = .keep ∨ setAway next manual now timeout = .apply next := by
  unfold setAway at h
  split at h
  · cases h
  · split at h
    · cases h
    · cases h
      cases manual <;> simp [setAway, Record.moveTo]

/-- A deadline that is set once more keeps the state that was to follow it. -/
theorem setDndUntil_again {deadline : Moment}
    (h : setDndUntil record deadline now = .ok (.apply next)) :
    setDndUntil next deadline now = .ok (.apply next) := by
  unfold setDndUntil at h ⊢
  split at h
  · cases h
  · next hahead =>
    cases h
    rw [if_neg hahead]
    simp [restoreTarget, Record.moveTo]

end Rules

variable {transition : Transition} {current : Current} {now timeout : Moment} {next : Record}

/-- Of the record that it has made a rule makes nothing else at the same time. -/
theorem decision_again (h : transition.decision current now timeout = .ok (.apply next)) :
    transition.decision ⟨next, true⟩ now timeout = .ok .keep ∨
      transition.decision ⟨next, true⟩ now timeout = .ok (.apply next) := by
  cases transition with
  | online manual => exact .inr (congrArg _ (setOnline_again (Except.ok.inj h)))
  | activity => exact .inr (congrArg _ (recordActivity_again (Except.ok.inj h)))
  | openChannel channel => exact .inr (congrArg _ (setChannel_again (Except.ok.inj h)))
  | offline manual => exact .inr (congrArg _ (setOffline_again (Except.ok.inj h)))
  | away manual =>
    exact (setAway_again (Except.ok.inj h)).imp (congrArg Except.ok) (congrArg Except.ok)
  | dndUntil deadline => exact .inr (setDndUntil_again h)
  | dnd | outOfOffice | reset =>
    cases h
    exact .inr (by simp [decision, Record.moveTo])

/-- What a transition comes to: a failure, of the rule or of the check before a full write; a
record that takes the place of the current one; or nothing, if the current one is kept. -/
def outcome (transition : Transition) (current : Current) (now timeout : Moment) :
    Except Failure (Option Record) :=
  match transition.decision current now timeout with
  | .error failure => .error failure
  | .ok .keep => .ok none
  | .ok (.apply next) => current.replacement next

/-- A transition that has come to a record comes to nothing else at the same time. -/
theorem outcome_again (h : transition.outcome current now timeout = .ok (some next)) :
    transition.outcome ⟨next, true⟩ now timeout = .ok none := by
  have happlied : transition.decision current now timeout = .ok (.apply next) := by
    unfold outcome at h
    split at h
    · cases h
    · cases h
    · next made hdecision =>
      obtain rfl := Current.eq_of_replacement h
      exact hdecision
  rcases decision_again happlied with hkeep | hsame
  · rw [outcome, hkeep]
  · rw [outcome, hsame]
    exact Current.replacement_self next

end Transition

end PresenceTracker
