import PresenceTracker.Record
import PresenceTracker.Settings.Tracking

/-!
# Transition rules

A transition looks at a user's current record and decides what becomes of it:
nothing, or another record. The rules touch neither the store nor a cache nor a
clock. What a user chose stays until the user chooses again: an inferred signal never
overrides a chosen state.
-/

namespace PresenceTracker

/-- A user's record as it is when a transition begins. -/
structure Current where
  /-- The record, or the default record of a user nobody has recorded. -/
  record : Record
  /-- Whether the record exists in the store. -/
  persisted : Bool
  deriving DecidableEq, Repr

namespace Current

/-- A user nobody has recorded yet. -/
def missing (user : String) : Current := ⟨.offlineDefault user, false⟩

/-- Whether storing `next` takes a full write and not just one of the activity. -/
def needsFullSave (current : Current) (next : Record) : Bool :=
  !current.persisted ||
    current.record.status ≠ next.status ||
    current.record.manual ≠ next.manual ||
    current.record.deadline ≠ next.deadline ||
    current.record.restoreTo ≠ next.restoreTo ||
    current.record.channel ≠ next.channel

end Current

/-- What a rule makes of a record. -/
inductive Decision where
  /-- Nothing changes. -/
  | keep
  /-- The record is replaced. -/
  | apply (next : Record)
  deriving DecidableEq, Repr

/-- Moves a record to a state. The open channel is forgotten when the state is another
one, and what belongs to a deadline is always forgotten. -/
def Record.moveTo (record : Record) (status : Status) (manual : Bool) : Record :=
  { record with
    status := status
    manual := manual
    channel := if record.status = status then record.channel else none
    restoreTo := none
    deadline := none }

/-- The transitions that callers can ask for. -/
inductive Transition where
  /-- Online, never as a choice; `manual` says whether a chosen state is overridden. -/
  | online (manual : Bool)
  /-- A sign of life from a client. -/
  | activity
  /-- The user opened a channel, or left every channel. -/
  | openChannel (channel : Option String)
  /-- Offline, by choice or inferred. -/
  | offline (manual : Bool)
  /-- Away by choice, or because the user has been idle for long enough. -/
  | away (manual : Bool)
  /-- Do not disturb until a deadline, and then back to the present state. -/
  | dndUntil (deadline : Moment)
  /-- Do not disturb, without a deadline. -/
  | dnd
  /-- Out of office. -/
  | outOfOffice
  /-- Offline and not chosen, whatever the user chose before. -/
  | reset
  deriving DecidableEq, Repr

namespace Transition

/-- The text for a deadline that is not ahead. -/
def pastDeadlineText : String := "DND end time must be in the future"

/-- Online; a chosen state is kept unless the caller may override it. -/
def setOnline (record : Record) (manual : Bool) (now : Moment) : Decision :=
  if record.manual && !manual then .keep
  else .apply { record.moveTo .online false with lastActivity := now }

/-- Activity refreshes the time and brings a user without a chosen state online. -/
def recordActivity (record : Record) (now : Moment) : Decision :=
  if record.manual || record.status = .online then .apply { record with lastActivity := now }
  else setOnline record false now

/-- Viewing a channel is activity. It brings online a user without a chosen state, and
a user nobody has recorded even when the channel is left. -/
def setChannel (current : Current) (channel : Option String) (now : Moment) : Decision :=
  let base :=
    if !current.persisted || (!current.record.manual && channel.isSome) then
      current.record.moveTo .online false
    else current.record
  .apply { base with channel := channel, lastActivity := now }

/-- Offline; a chosen state is kept unless this is a choice too. -/
def setOffline (record : Record) (manual : Bool) (now : Moment) : Decision :=
  if record.manual && !manual then .keep
  else .apply { record.moveTo .offline manual with channel := none, lastActivity := now }

/-- Away, by choice or because the last activity is at least the timeout ago. -/
def setAway (record : Record) (manual : Bool) (now timeout : Moment) : Decision :=
  if record.manual && !manual then .keep
  else if !manual && (record.status = .away || Moment.since now record.lastActivity < timeout) then
    .keep
  else .apply { record.moveTo .away manual with channel := none }

/-- The state that follows a deadline set now. A new deadline for a do-not-disturb keeps
what was to follow the old one. -/
def restoreTarget (record : Record) : Status :=
  if record.status = .dnd then record.restoreTo.getD .online else record.status

/-- Do not disturb until a deadline, which has to lie ahead. -/
def setDndUntil (record : Record) (deadline now : Moment) : Except Failure Decision :=
  if deadline ≤ 0 || deadline ≤ now then .error (.plain .validation pastDeadlineText)
  else .ok (.apply
    { record.moveTo .dnd true with
      restoreTo := some (restoreTarget record)
      deadline := some deadline })

/-- What a transition makes of the current record at time `now`, with the idle time
after which an inferred state becomes away. -/
def decision (transition : Transition) (current : Current) (now awayTimeout : Moment) :
    Except Failure Decision :=
  let record := current.record
  match transition with
  | online manual => .ok (setOnline record manual now)
  | activity => .ok (recordActivity record now)
  | openChannel channel => .ok (setChannel current channel now)
  | offline manual => .ok (setOffline record manual now)
  | away manual => .ok (setAway record manual now awayTimeout)
  | dndUntil deadline => setDndUntil record deadline now
  | dnd => .ok (.apply (record.moveTo .dnd true))
  | outOfOffice => .ok (.apply (record.moveTo .outOfOffice true))
  | reset => .ok (.apply { record.moveTo .offline false with channel := none })

end Transition

end PresenceTracker
