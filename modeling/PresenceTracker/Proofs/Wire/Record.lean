import PresenceTracker.Proofs.Json.Object
import PresenceTracker.Wire.Message

/-!
# Reading back records written as JSON

The seven fields of a written record denote trees from which their readers give the fields
back, so that the reader of records gives back the record.
-/

namespace PresenceTracker.Wire

open Json

/-- The tree of a field that may be absent. -/
def optionTree {α : Type} (tree : α → Json) : Option α → Json
  | none => .null
  | some value => tree value

/-- A written field that may be absent denotes its tree if its values do. -/
theorem denotes_writeOption {α : Type} {write : α → Bytes} {tree : α → Json}
    (h : ∀ value, Denotes (write value) (tree value)) (field : Option α) :
    Denotes (writeOption write field) (optionTree tree field) := by
  cases field with
  | none => exact denotes_writeNull
  | some value => exact h value

/-- The tree of a text. -/
def textTree (text : String) : Json := .string (some text)

/-- The tree of a state. -/
def statusTree (status : Status) : Json := .string (some status.name)

/-- The tree of a time. -/
def momentTree (moment : Moment) : Json := .number (.ofInt moment.toInt)

/-- What is written of a status denotes its name. -/
theorem denotes_writeStatus (status : Status) : Denotes (writeStatus status) (statusTree status) :=
  denotes_writeText status.name

/-- What is written of a moment denotes its number. -/
theorem denotes_writeMoment (moment : Moment) : Denotes (writeMoment moment) (momentTree moment) :=
  denotes_writeInt moment.toInt

/-- The tree of a text is read as that text. -/
theorem asText_textTree (text : String) : asText (textTree text) = .ok text := rfl

/-- The tree of a status is read as that status. -/
theorem readStatus_statusTree (setAside : Bool) (status : Status) :
    readStatus setAside (statusTree status) = .ok status := by
  simp [readStatus, statusTree, asName, Status.ofName?_name]

/-- The number of a moment is read as that moment. -/
theorem asMoment_momentTree (moment : Moment) : asMoment (momentTree moment) = .ok moment := by
  have hrange : Int64.minValue.toInt ≤ moment.toInt ∧ moment.toInt ≤ Int64.maxValue.toInt :=
    ⟨moment.minValue_le_toInt, moment.toInt_le⟩
  simp only [asMoment, momentTree, asInt, NumberLiteral.integer?_ofInt, if_pos hrange, Except.map,
    Int64.ofInt_toInt]

/-- A field that may be absent is read from its tree if its values are and no value has the
tree of absence. -/
theorem asOption_optionTree {α : Type} {tree : α → Json} {read : Json → Except Fault α}
    (hread : ∀ value, read (tree value) = .ok value) (hnull : ∀ value, tree value ≠ .null)
    (field : Option α) : asOption read (optionTree tree field) = .ok field := by
  cases field with
  | none => rfl
  | some value =>
    have hvalue := hread value
    have hne := hnull value
    unfold asOption optionTree
    split
    case h_1 heq => exact absurd heq hne
    case h_2 => rw [hvalue]; rfl

/-- The members of a written record with the trees of their values. -/
def recordMembers (record : Record) : List Json.Member := [
  ⟨"user_id", _, _, denotes_writeText record.userId⟩,
  ⟨"status", _, _, denotes_writeStatus record.status⟩,
  ⟨"manual", _, _, denotes_writeBool record.manual⟩,
  ⟨"last_activity_at", _, _, denotes_writeMoment record.lastActivity⟩,
  ⟨"active_channel", _, optionTree textTree record.channel,
    denotes_writeOption denotes_writeText record.channel⟩,
  ⟨"previous_status", _, _, denotes_writeOption denotes_writeStatus record.restoreTo⟩,
  ⟨"dnd_end_time", _, _, denotes_writeOption denotes_writeMoment record.deadline⟩]

/-- The tree of a record. -/
def recordTree (record : Record) : Json := .object ((recordMembers record).map Json.Member.tree)

/-- What is written of a record denotes its tree. -/
theorem denotes_writeRecord (record : Record) : Denotes (writeRecord record) (recordTree record) :=
  denotes_writeObject (recordMembers record)

/-- The fields of the tree of a record are found by their names. -/
theorem fields_recordTree (record : Record) :
    fields recordFields (recordTree record) =
      .ok ⟨true, (recordMembers record).map fun field => (field.key, field.json)⟩ := by
  rfl

/-- The reader of records reads the tree of a record. -/
theorem readRecord_recordTree (setAside : Bool) (record : Record) :
    readRecord setAside (recordTree record) = .ok record := by
  have hchannel := asOption_optionTree asText_textTree (fun _ => nofun) record.channel
  have hrestore := asOption_optionTree (readStatus_statusTree setAside) (fun _ => nofun)
    record.restoreTo
  have hdeadline := asOption_optionTree asMoment_momentTree (fun _ => nofun) record.deadline
  simp only [readRecord, fields_recordTree, bind, Except.bind, recordMembers, List.map_cons,
    List.map_nil, Fields.required, Fields.optional, Fields.find?, List.lookup_cons, List.lookup_nil]
  simp [readStatus_statusTree, asMoment_momentTree, hchannel, hrestore, hdeadline, asText, asBool,
    pure, Except.pure]

/-- A record written as JSON is parsed as the record. -/
theorem parse_writeRecord (record : Record) :
    parse (readRecord false) (writeRecord record) = .ok record := by
  rw [parse, parse_of_denotes (denotes_writeRecord record)]
  simp only [readRecord_recordTree]

end PresenceTracker.Wire
