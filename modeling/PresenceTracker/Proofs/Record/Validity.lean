import PresenceTracker.Proofs.Record.Agreement
import PresenceTracker.Proofs.Record.Shape
import PresenceTracker.Proofs.Record.Timeless

/-!
# Records that pass the check

The check of a record asks two things that have nothing to do with each other: that the last
activity is not before the epoch, and everything else. A transition that takes no full write
changes nothing but the last activity, and sets it to the present. So rows that pass the check
are handed on, also from cached records that pass but for their last activity, as they do after
a caller has set it.
-/

namespace PresenceTracker

namespace Record

variable {record other : Record}

/-- A record passes the check if it does with its last activity at the epoch, and the last
activity is not before that. -/
theorem validate_eq_ok_iff_timeless :
    record.validate = .ok () ↔ record.timeless.validate = .ok () ∧ 0 ≤ record.lastActivity := by
  constructor
  · intro h
    have hactive := lastActivity_of_validate h
    exact ⟨(validate_timeless hactive).trans h, hactive⟩
  · rintro ⟨h, hactive⟩
    exact (validate_timeless hactive).symm.trans h

/-- Of a user whose record passes the check every record without a deadline does that was last
active at the same moment. -/
theorem validate_of_undated (h : record.validate = .ok ()) (huser : other.userId = record.userId)
    (hactivity : other.lastActivity = record.lastActivity) (hdeadline : other.deadline = none) :
    other.validate = .ok () := by
  have hchecked := checkUser_of_validate h
  have hactive : ¬other.lastActivity < 0 :=
    hactivity ▸ Int64.not_lt.mpr (lastActivity_of_validate h)
  rw [checkUser, validate_eq_ok_iff, fault?] at hchecked
  rw [validate_eq_ok_iff, fault?, huser, hdeadline, if_neg hactive]
  exact hchecked

theorem validate_restored (h : record.validate = .ok ()) : record.restored.validate = .ok () :=
  validate_of_undated h rfl rfl rfl

/-- A record passes the check, but for a last activity that is one of those `noted`. -/
structure ValidBut (noted : Moment → Prop) (record : Record) : Prop where
  /-- With its last activity at the epoch it passes. -/
  timeless : record.timeless.validate = .ok ()
  /-- Its last activity is not before the epoch, or is one of those noted. -/
  activity : 0 ≤ record.lastActivity ∨ noted record.lastActivity

theorem validBut_of_validate {noted : Moment → Prop} (h : record.validate = .ok ()) :
    record.ValidBut noted :=
  ⟨(validate_eq_ok_iff_timeless.mp h).1, .inl (lastActivity_of_validate h)⟩

/-- Such a record passes the check if it was not last active before the epoch. -/
theorem ValidBut.validate {noted : Moment → Prop} (h : record.ValidBut noted)
    (hactive : 0 ≤ record.lastActivity) : record.validate = .ok () :=
  validate_eq_ok_iff_timeless.mpr ⟨h.timeless, hactive⟩

/-- A caller may set any of the last activities that are noted. -/
theorem ValidBut.note {noted : Moment → Prop} (h : record.ValidBut noted) {moment : Moment}
    (hmoment : noted moment) : { record with lastActivity := moment }.ValidBut noted :=
  ⟨h.timeless, .inr hmoment⟩

/-- Unless the present is before the epoch, rows that pass the check are handed on, even if
cached records may fail it by their last activities. -/
theorem validate_lineage (noted : Moment → Prop) {now : Moment} (hnow : 0 ≤ now) :
    Lineage now (fun record => record.validate = .ok ()) (ValidBut noted) where
  weaker _ h := validBut_of_validate h
  default _ huser := validBut_of_validate huser
  restored _ h := validate_restored h
  saved _ _ _ _ _ _ _ hvalid := hvalid
  touched transition current timeout next hcurrent hdecision hpartial hother := by
    obtain ⟨-, hagrees⟩ :=
      Current.agreesWith_of_not_needsFullSave (Transition.userId_of_apply hdecision) hpartial
    have hpresent : next.lastActivity = now := by
      rcases Transition.lastActivity_eq_of_apply hdecision with hpresent | hbefore
      · exact hpresent
      · refine absurd ?_ hother
        have hsame : { next with lastActivity := current.record.lastActivity } = current.record :=
          hagrees
        rw [← hsame, ← hbefore]
    have hactive : 0 ≤ next.lastActivity := hpresent ▸ hnow
    refine ⟨validate_eq_ok_iff_timeless.mpr ⟨?_, hactive⟩, fun row hrow => ?_⟩
    · exact agreesWith_iff_timeless.mp hagrees ▸ hcurrent.timeless
    · exact validate_eq_ok_iff_timeless.mpr ⟨(validate_eq_ok_iff_timeless.mp hrow).1, hactive⟩

end Record

namespace Transition

/-- Whether a transition is applied whatever the current record is: do not disturb without a
deadline, out of office, or the reset. -/
def isUnconditional : Transition → Bool
  | dnd | outOfOffice | reset => true
  | _ => false

/-- A transition that is always applied makes a record that passes the check of one that does. -/
theorem unconditional_applies {transition : Transition} (h : transition.isUnconditional = true)
    {current : Current} (hcurrent : current.record.validate = .ok ()) (now timeout : Moment) :
    ∃ next, transition.decision current now timeout = .ok (.apply next) ∧
      next.validate = .ok () := by
  cases transition with
  | dnd => exact ⟨_, rfl, Record.validate_of_undated hcurrent rfl rfl rfl⟩
  | outOfOffice => exact ⟨_, rfl, Record.validate_of_undated hcurrent rfl rfl rfl⟩
  | reset => exact ⟨_, rfl, Record.validate_of_undated hcurrent rfl rfl rfl⟩
  | _ => cases h

end Transition

end PresenceTracker
