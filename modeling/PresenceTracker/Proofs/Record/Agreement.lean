import PresenceTracker.Transition

/-!
# Records that agree

Two records agree if they differ in the last activity at most. That is an equivalence, and
everything the rules look at besides the activity is the same for records that agree. A
transition stays with its user, and what it applies agrees with the record before exactly
when no full write is called for.
-/

namespace PresenceTracker

namespace Record.AgreesWith

variable {first second third : Record}

theorem refl (record : Record) : record.AgreesWith record := rfl

theorem symm (h : first.AgreesWith second) : second.AgreesWith first := by
  rw [agreesWith_iff] at h ⊢
  obtain ⟨huser, hstatus, hmanual, hchannel, hrestore, hdeadline⟩ := h
  exact ⟨huser.symm, hstatus.symm, hmanual.symm, hchannel.symm, hrestore.symm, hdeadline.symm⟩

theorem trans (h : first.AgreesWith second) (h' : second.AgreesWith third) :
    first.AgreesWith third := by
  rw [agreesWith_iff] at h h' ⊢
  obtain ⟨huser, hstatus, hmanual, hchannel, hrestore, hdeadline⟩ := h
  obtain ⟨huser', hstatus', hmanual', hchannel', hrestore', hdeadline'⟩ := h'
  exact ⟨huser.trans huser', hstatus.trans hstatus', hmanual.trans hmanual',
    hchannel.trans hchannel', hrestore.trans hrestore', hdeadline.trans hdeadline'⟩

theorem userId_eq (h : first.AgreesWith second) : first.userId = second.userId :=
  ((agreesWith_iff first second).mp h).1

theorem status_eq (h : first.AgreesWith second) : first.status = second.status :=
  ((agreesWith_iff first second).mp h).2.1

/-- A record with another last activity agrees with it. -/
theorem withActivity (record : Record) (moment : Moment) :
    { record with lastActivity := moment }.AgreesWith record := rfl

/-- Of records that agree both have passed their deadline or neither has. -/
theorem isExpired_eq (h : first.AgreesWith second) (now : Moment) :
    first.isExpired now = second.isExpired now := by
  obtain ⟨-, hstatus, hmanual, -, -, hdeadline⟩ := (agreesWith_iff first second).mp h
  rw [isExpired, isExpired, hstatus, hmanual, hdeadline]

end Record.AgreesWith

/-- The record after a passed deadline is the record of the same user. -/
theorem Record.userId_restored (record : Record) : record.restored.userId = record.userId := rfl

/-- The identifier of a record that may be written passes the check of identifiers. -/
theorem Record.checkUser_of_validate {record : Record} (h : record.validate = .ok ()) :
    checkUser record.userId = .ok () := by
  rw [validate_eq_ok_iff, fault?] at h
  split at h
  · cases h
  · next hblank =>
    split at h
    · cases h
    · next hlong =>
      have hblank' : ¬Text.allBlank (offlineDefault record.userId).userId = true := hblank
      have hlong' : ¬maxUserBytes < (offlineDefault record.userId).userId.utf8ByteSize := hlong
      rw [checkUser, validate_eq_ok_iff, fault?, if_neg hblank', if_neg hlong']
      rfl

/-- What is applied without a full write agrees with the record before. -/
theorem Current.agreesWith_of_not_needsFullSave {current : Current} {next : Record}
    (huser : next.userId = current.record.userId) (h : current.needsFullSave next = false) :
    current.persisted = true ∧ next.AgreesWith current.record := by
  simp only [needsFullSave, Bool.or_eq_false_iff, Bool.not_eq_false', decide_eq_false_iff_not,
    ne_eq, Decidable.not_not] at h
  obtain ⟨⟨⟨⟨⟨hpersisted, hstatus⟩, hmanual⟩, hdeadline⟩, hrestore⟩, hchannel⟩ := h
  exact ⟨hpersisted, (Record.agreesWith_iff next current.record).mpr
    ⟨huser, hstatus.symm, hmanual.symm, hchannel.symm, hrestore.symm, hdeadline.symm⟩⟩

namespace Transition

/-- What a transition applies is a record of the same user. -/
theorem userId_of_apply {transition : Transition} {current : Current} {now timeout : Moment}
    {next : Record} (h : transition.decision current now timeout = .ok (.apply next)) :
    next.userId = current.record.userId := by
  cases transition with
  | online manual =>
    simp only [decision, setOnline] at h
    split at h <;> cases h
    rfl
  | activity =>
    simp only [decision, recordActivity, setOnline] at h
    split at h
    · cases h
      rfl
    · split at h <;> cases h
      rfl
  | openChannel channel =>
    simp only [decision, setChannel] at h
    cases h
    split <;> rfl
  | offline manual =>
    simp only [decision, setOffline] at h
    split at h <;> cases h
    rfl
  | away manual =>
    simp only [decision, setAway] at h
    split at h
    · cases h
    · split at h <;> cases h
      rfl
  | dndUntil deadline =>
    simp only [decision, setDndUntil] at h
    split at h <;> cases h
    rfl
  | dnd => cases h; rfl
  | outOfOffice => cases h; rfl
  | reset => cases h; rfl

end Transition

end PresenceTracker
