import PresenceTracker.Status
import PresenceTracker.Text
import PresenceTracker.Time

/-!
# Status records

The last known status of one user, as the store keeps it and the caches hold it.
A record says since when the user has been quiet, whether the state was chosen by
the user (and so is kept until the user chooses again), which channel is open, and
for a do-not-disturb with a deadline what comes after it.
-/

namespace PresenceTracker

/-- The last known status of one user. -/
structure Record where
  /-- The user. -/
  userId : String
  /-- The presence state. -/
  status : Status
  /-- Whether the state was chosen and not inferred. -/
  manual : Bool
  /-- The last known activity. -/
  lastActivity : Moment
  /-- The channel the user is viewing. -/
  channel : Option String := none
  /-- The state that follows a do-not-disturb with a deadline. -/
  restoreTo : Option Status := none
  /-- The deadline of a do-not-disturb. -/
  deadline : Option Moment := none
  deriving DecidableEq, Repr

/-- A rule that a record breaks. -/
inductive RecordFault where
  /-- The user identifier holds nothing but white space. -/
  | blankUser
  /-- The user identifier is too long. -/
  | longUser
  /-- The last activity lies before the epoch. -/
  | negativeActivity
  /-- There is a deadline without a chosen do-not-disturb. -/
  | strayDeadline
  deriving DecidableEq, Repr

/-- What a broken rule is reported as. -/
def RecordFault.message : RecordFault → String
  | blankUser => "User ID cannot be empty"
  | longUser => "User ID cannot exceed 64 characters"
  | negativeActivity => "Last activity cannot be negative"
  | strayDeadline => "A DND end time requires a manual DND status"

namespace Record

/-- The most bytes a user identifier may have. -/
def maxUserBytes : Nat := 64

/-- The record assumed for a user nobody has recorded: offline, inferred, never active. -/
def offlineDefault (user : String) : Record :=
  { userId := user, status := .offline, manual := false, lastActivity := 0 }

/-- Whether this is a chosen do-not-disturb whose deadline is at or before `now`. -/
def isExpired (record : Record) (now : Moment) : Bool :=
  record.status = .dnd && record.manual && record.deadline.any fun deadline => deadline ≤ now

/-- What becomes of a record when its deadline has passed. -/
def restored (record : Record) : Record :=
  { record with
    status := record.restoreTo.getD .offline
    manual := false
    restoreTo := none
    deadline := none }

/-- Whether a client can tell the two records apart: by state, by choice or by deadline. -/
def differsVisibly (record other : Record) : Bool :=
  record.status ≠ other.status || record.manual ≠ other.manual || record.deadline ≠ other.deadline

/-- The first rule that a record breaks. -/
def fault? (record : Record) : Option RecordFault :=
  if Text.allBlank record.userId then some .blankUser
  else if maxUserBytes < record.userId.utf8ByteSize then some .longUser
  else if record.lastActivity < 0 then some .negativeActivity
  else if record.deadline.isSome && !(record.status = .dnd && record.manual) then
    some .strayDeadline
  else none

/-- Whether a record may be written anywhere. -/
def validate (record : Record) : Except Failure Unit :=
  match record.fault? with
  | some fault => .error (.plain .validation fault.message)
  | none => .ok ()

/-- A user identifier is good if a default record for it is. -/
def checkUser (user : String) : Except Failure Unit := (offlineDefault user).validate

/-- Two records agree if they differ in the last activity at most. -/
def AgreesWith (record other : Record) : Prop :=
  { record with lastActivity := other.lastActivity } = other

instance (record other : Record) : Decidable (record.AgreesWith other) :=
  inferInstanceAs (Decidable (_ = _))

theorem validate_eq_ok_iff (record : Record) : record.validate = .ok () ↔ record.fault? = none := by
  unfold validate
  split <;> simp_all

theorem agreesWith_iff (record other : Record) :
    record.AgreesWith other ↔
      record.userId = other.userId ∧ record.status = other.status ∧ record.manual = other.manual ∧
        record.channel = other.channel ∧ record.restoreTo = other.restoreTo ∧
          record.deadline = other.deadline := by
  cases record
  cases other
  simp [AgreesWith]

end Record

end PresenceTracker
