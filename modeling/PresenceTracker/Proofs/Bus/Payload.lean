import PresenceTracker.Proofs.Json.Utf8
import PresenceTracker.Proofs.Wire.Message
import PresenceTracker.Redis.Bus

/-!
# Payloads on the channel

A message is written as text, so that a listener which asks for a text gets to see it, and reads
it back as the message that it is.
-/

namespace PresenceTracker

namespace Wire

open Bytes Json

theorem isText_writeBool (value : Bool) : IsText (writeBool value) := isText_ofText _

theorem isText_writeStatus (status : Status) : IsText (writeStatus status) :=
  isText_writeText status.name

theorem isText_writeMoment (moment : Moment) : IsText (writeMoment moment) :=
  isText_writeInt moment.toInt

/-- A written record is text. -/
theorem isText_writeRecord (record : Record) : IsText (writeRecord record) := by
  refine isText_writeObject ?_
  simp only [List.forall_mem_cons]
  exact ⟨isText_writeText _, isText_writeStatus _, isText_writeBool _, isText_writeMoment _,
    isText_writeOption isText_writeText _, isText_writeOption isText_writeStatus _,
    isText_writeOption isText_writeMoment _, nofun⟩

/-- A written presence event is text, with a deadline and without. -/
theorem isText_writePresence (presence : PresenceEvent) : IsText (writePresence presence) := by
  refine isText_writeObject (List.forall_mem_append.mpr ⟨?_, ?_⟩)
  · simp only [List.forall_mem_cons]
    exact ⟨isText_writeText _, isText_writeStatus _, isText_writeBool _, isText_writeMoment _,
      nofun⟩
  · cases presence.deadline with
    | none => nofun
    | some deadline => exact List.forall_mem_singleton.mpr (isText_writeMoment deadline)

/-- A written payload is text. -/
theorem isText_writePayload (event : Event) : IsText (writePayload event) := by
  cases event with
  | updateStatus record => exact isText_writeRecord record
  | presenceChanged presence => exact isText_writePresence presence
  | invalidateCache topic key =>
    refine isText_writeObject ?_
    simp only [List.forall_mem_cons]
    exact ⟨isText_writeText _, isText_writeOption isText_writeText _, nofun⟩

/-- A written message is text. -/
theorem isText_writeMessage (message : Message) : IsText (writeMessage message) := by
  have hevent : IsText (writeEvent message.event) := by
    refine isText_writeObject ?_
    simp only [List.forall_mem_cons]
    exact ⟨isText_writeText _, isText_writePayload _, nofun⟩
  refine isText_writeObject ?_
  simp only [List.forall_mem_cons]
  exact ⟨isText_writeText _, hevent, nofun⟩

end Wire

/-- The payload of an event is the message that says which node it came from. -/
theorem RedisBus.message?_payload (bus : RedisBus) (event : Event) :
    RedisBus.message? (bus.payload event) = some ⟨bus.node, event⟩ := by
  obtain ⟨text, htext⟩ := Wire.isText_writeMessage ⟨bus.node, event⟩
  have hparse : Wire.parse Wire.readMessage (bus.payload event) = .ok ⟨bus.node, event⟩ :=
    Wire.parse_message ⟨bus.node, event⟩ (Wire.carries_written event)
  have hseen : Bytes.text? (bus.payload event) = some text := by
    rw [RedisBus.payload, ← htext]
    exact Bytes.text?_ofText text
  rw [RedisBus.message?, hseen]
  simp only [hparse, Except.toOption]

end PresenceTracker
