import PresenceTracker.Proofs.Json.Fields
import PresenceTracker.Proofs.Wire.Node
import PresenceTracker.Proofs.Wire.Record

/-!
# Reading back messages written as JSON

The payload of an event is an object of sound values, so it may stand in front of the kind as
well as behind it. Members with other keys make no difference to an event, whatever JSON values
they have.
-/

namespace PresenceTracker.Wire

open Json

section Payloads

/-- The members of a written presence event with the trees of their values. -/
def presenceMembers (presence : PresenceEvent) : List Json.Member :=
  [⟨"user_id", _, textTree presence.userId, denotes_writeText presence.userId⟩,
    ⟨"status", _, _, denotes_writeStatus presence.status⟩,
    ⟨"manual", _, _, denotes_writeBool presence.manual⟩,
    ⟨"last_activity_at", _, _, denotes_writeMoment presence.lastActivity⟩] ++
  match presence.deadline with
  | some deadline => [⟨"dnd_end_time", _, _, denotes_writeMoment deadline⟩]
  | none => []

/-- The tree of a topic. -/
def topicTree (topic : Topic) : Json := .string (some topic.name)

/-- The tree of the kind of an event. -/
def kindTree (kind : EventKind) : Json := .string (some kind.name)

/-- The members of a written payload with the trees of their values. -/
def payloadMembers : Event → List Json.Member
  | .updateStatus record => recordMembers record
  | .presenceChanged presence => presenceMembers presence
  | .invalidateCache topic key => [
    ⟨"topic", _, topicTree topic, denotes_writeText topic.name⟩,
    ⟨"key", _, optionTree textTree key, denotes_writeOption denotes_writeText key⟩]

/-- The tree of the payload of an event. -/
def payloadTree (event : Event) : Json := .object ((payloadMembers event).map Json.Member.tree)

/-- The payload of an event is written as an object of its fields. -/
theorem writePayload_eq (event : Event) :
    writePayload event =
      writeObject ((payloadMembers event).map fun field => (field.key, field.written)) := by
  cases event with
  | updateStatus record => rfl
  | invalidateCache topic key => rfl
  | presenceChanged presence =>
    rw [writePayload, writePresence, payloadMembers, presenceMembers]
    cases presence.deadline <;> rfl

/-- What is written of a payload denotes its tree. -/
theorem denotes_writePayload (event : Event) :
    Denotes (writePayload event) (payloadTree event) := by
  rw [writePayload_eq]
  exact denotes_writeObject (payloadMembers event)

/-- The fields of the tree of a presence event are found by their names. -/
theorem fields_presence (presence : PresenceEvent) :
    fields presenceFields (.object ((presenceMembers presence).map Json.Member.tree)) =
      .ok ⟨true, (presenceMembers presence).map fun field => (field.key, field.json)⟩ := by
  rw [presenceMembers]
  cases presence.deadline <;> rfl

/-- The reader of presence events reads the tree of a presence event. -/
theorem readPresence_tree (setAside : Bool) (presence : PresenceEvent) :
    readPresence setAside (.object ((presenceMembers presence).map Json.Member.tree)) =
      .ok presence := by
  have hfields := fields_presence presence
  obtain ⟨userId, status, manual, lastActivity, deadline⟩ := presence
  have hdeadline := asOption_optionTree asMoment_momentTree (fun _ => nofun) deadline
  rw [readPresence, hfields]
  cases deadline with
  | none =>
    simp [presenceMembers, bind, Except.bind, Fields.required, Fields.orElse, Fields.find?,
      List.lookup_cons, readStatus_statusTree, asMoment_momentTree, asText_textTree, asBool, pure,
      Except.pure]
  | some moment =>
    simp only [optionTree] at hdeadline
    simp [presenceMembers, bind, Except.bind, Fields.required, Fields.orElse, Fields.find?,
      List.lookup_cons, readStatus_statusTree, asMoment_momentTree, asText_textTree, asBool,
      hdeadline, pure, Except.pure]

/-- The tree of a topic is read as that topic. -/
theorem readTopic_topicTree (setAside : Bool) (topic : Topic) :
    readTopic setAside (topicTree topic) = .ok topic := by
  simp [readTopic, topicTree, asName, Topic.ofName?_name]

/-- The tree of a kind of events is read as that kind. -/
theorem readKind_kindTree (kind : EventKind) : readKind (kindTree kind) = .ok kind := by
  simp [readKind, kindTree, asName, EventKind.ofName?_name]

/-- The reader of invalidations reads the tree of an invalidation. -/
theorem readInvalidation_tree (setAside : Bool) (topic : Topic) (key : Option String) :
    readInvalidation setAside (payloadTree (.invalidateCache topic key)) =
      .ok (.invalidateCache topic key) := by
  have hkey := asOption_optionTree asText_textTree (fun _ => nofun) key
  have hfields : fields ["topic", "key"] (payloadTree (.invalidateCache topic key)) =
      .ok ⟨true, [("topic", topicTree topic), ("key", optionTree textTree key)]⟩ := rfl
  have hread : readInvalidation setAside (payloadTree (.invalidateCache topic key)) = (do
      let fields ← fields ["topic", "key"] (payloadTree (.invalidateCache topic key))
      let topic ← fields.required "topic" (readTopic setAside)
      let key ← fields.optional "key" asText
      return .invalidateCache topic key) := rfl
  rw [hread, hfields]
  simp [bind, Except.bind, Fields.required, Fields.optional, Fields.find?, List.lookup_cons,
    readTopic_topicTree, hkey, pure, Except.pure]

/-- The reader of payloads reads the tree of a payload, set aside or not. -/
theorem readPayload_payloadTree (setAside : Bool) (event : Event) :
    readPayload setAside event.kind (payloadTree event) = .ok event := by
  cases event with
  | updateStatus record =>
    have hread : readRecord setAside (payloadTree (.updateStatus record)) = .ok record :=
      readRecord_recordTree setAside record
    simp only [readPayload, Event.kind, hread, Except.map]
  | presenceChanged presence =>
    have hread : readPresence setAside (payloadTree (.presenceChanged presence)) = .ok presence :=
      readPresence_tree setAside presence
    simp only [readPayload, Event.kind, hread, Except.map]
  | invalidateCache topic key => exact readInvalidation_tree setAside topic key

/-- The number of a moment may be set aside. -/
theorem sound_momentTree (moment : Moment) : Sound (momentTree moment) := by
  have hlow : Int64.minValue.toInt ≤ moment.toInt := moment.minValue_le_toInt
  have hhigh : moment.toInt ≤ Int64.maxValue.toInt := moment.toInt_le
  have hmax : Int64.maxValue.toInt ≤ (JsonNumber.maxWord : Int) := by decide
  have hfits : JsonNumber.fits moment.toInt = true := by
    rw [JsonNumber.fits, Bool.and_eq_true, decide_eq_true_eq, decide_eq_true_eq]
    exact ⟨hlow, Int.le_trans hhigh hmax⟩
  exact sound_int hfits

/-- A value that may be absent may be set aside, as null or as what it is. -/
theorem sound_optionTree {α : Type} {tree : α → Json} (h : ∀ value, Sound (tree value))
    (field : Option α) : Sound (optionTree tree field) := by
  cases field with
  | none => exact sound_null
  | some value => exact h value

/-- Every member of a payload is sound. -/
theorem sound_payloadMembers (event : Event) :
    ∀ field ∈ payloadMembers event, Sound field.json := by
  cases event with
  | updateStatus record =>
    have hstatus : ∀ status, Sound (statusTree status) := fun status => sound_text status.name
    simp only [payloadMembers, recordMembers, List.forall_mem_cons]
    exact ⟨sound_text _, hstatus _, sound_bool _, sound_momentTree _,
      sound_optionTree sound_text _, sound_optionTree hstatus _,
      sound_optionTree sound_momentTree _, List.forall_mem_nil _⟩
  | presenceChanged presence =>
    rw [payloadMembers, presenceMembers, List.forall_mem_append]
    constructor
    · simp only [List.forall_mem_cons]
      exact ⟨sound_text _, sound_text _, sound_bool _, sound_momentTree _, List.forall_mem_nil _⟩
    · cases presence.deadline with
      | none => exact List.forall_mem_nil _
      | some deadline => exact List.forall_mem_singleton.mpr (sound_momentTree deadline)
  | invalidateCache topic key =>
    simp only [payloadMembers, List.forall_mem_cons]
    exact ⟨sound_text _, sound_optionTree sound_text _, List.forall_mem_nil _⟩

end Payloads

section Events

/-- The keys under which an event has its kind and its payload. -/
def eventKeys : List String := ["kind", "payload"]

/-- The members of an object that says what an event is: its kind and its payload in either
order, and anywhere beside them members with other keys and any JSON values. -/
structure Carries (members : List (String × Bytes)) (event : Event) : Prop where
  /-- The kind and the payload are there once each. -/
  own : (members.filter fun entry => eventKeys.contains entry.1) =
      [("kind", writeKind event.kind), ("payload", writePayload event)] ∨
    (members.filter fun entry => eventKeys.contains entry.1) =
      [("payload", writePayload event), ("kind", writeKind event.kind)]
  /-- The values of all others are JSON values. -/
  others : ∀ entry ∈ members, eventKeys.contains entry.1 = false → ValueText entry.2

/-- The members as which an event is written say what the event is. -/
theorem carries_written (event : Event) :
    Carries [("kind", writeKind event.kind), ("payload", writePayload event)] event := by
  refine ⟨Or.inl rfl, List.forall_mem_cons.mpr ⟨nofun, List.forall_mem_singleton.mpr nofun⟩⟩

/-- The tree under a key of an event is that of its kind or of its payload. -/
def OwnTree (event : Event) (key : String) (json : Json) : Prop :=
  (key = "kind" → json = kindTree event.kind) ∧ (key = "payload" → json = payloadTree event)

variable {members : List (String × Bytes)} {event : Event}

/-- Every member of such an object denotes a tree, the kind and the payload their own. -/
theorem Carries.denotes (h : Carries members event) :
    ∀ entry ∈ members, ∃ json, Denotes entry.2 json ∧ OwnTree event entry.1 json := by
  intro entry hentry
  cases hown : eventKeys.contains entry.1 with
  | true =>
    have hmem : entry ∈ members.filter fun entry => eventKeys.contains entry.1 :=
      List.mem_filter.mpr ⟨hentry, hown⟩
    have hpair : entry = ("kind", writeKind event.kind) ∨
        entry = ("payload", writePayload event) := by
      rcases h.own with heq | heq
      · exact List.mem_pair.mp (heq ▸ hmem)
      · exact (List.mem_pair.mp (heq ▸ hmem)).symm
    have hne : "kind" ≠ "payload" := by decide
    rcases hpair with rfl | rfl
    · exact ⟨_, denotes_writeText event.kind.name, fun _ => rfl, fun heq => absurd heq hne⟩
    · exact ⟨_, denotes_writePayload event, fun heq => absurd heq hne.symm, fun _ => rfl⟩
  | false =>
    obtain ⟨json, hjson⟩ := (h.others entry hentry hown).denotes
    refine ⟨json, hjson, fun heq => ?_, fun heq => ?_⟩
    · rw [heq] at hown
      exact absurd hown (by decide)
    · rw [heq] at hown
      exact absurd hown (by decide)

/-- An object whose known members are two has these two as its fields, in the order in which
they stand. -/
theorem fields_pair {keys : List String} {written : List Json.Member} {first second : String}
    {firstBytes secondBytes : Bytes} {firstTree secondTree : Json}
    (hknown : (known keys written).map (fun field => (field.key, field.written)) =
      [(first, firstBytes), (second, secondBytes)]) (hne : first ≠ second)
    (hfirst : ∀ field ∈ known keys written, field.key = first → field.json = firstTree)
    (hsecond : ∀ field ∈ known keys written, field.key = second → field.json = secondTree) :
    fields keys (.object (written.map Json.Member.tree)) =
      .ok ⟨true, [(first, firstTree), (second, secondTree)]⟩ := by
  match hpair : known keys written with
  | [] | [_] | _ :: _ :: _ :: _ => simp [hpair] at hknown
  | [one, other] =>
    rw [hpair] at hknown hfirst hsecond
    obtain ⟨hone, hrest⟩ := List.cons.inj hknown
    obtain ⟨rfl, -⟩ := Prod.mk.inj hone
    obtain ⟨rfl, -⟩ := Prod.mk.inj (List.cons.inj hrest).1
    have hone : one.json = firstTree := hfirst one List.mem_cons_self rfl
    have hother : other.json = secondTree :=
      hsecond other (List.mem_cons_of_mem _ List.mem_cons_self) rfl
    have hnodup : ((known keys written).map Json.Member.key).Nodup := by
      rw [hpair]
      simpa using hne
    rw [fields_tree hnodup, hpair, ← hone, ← hother]
    rfl

/-- The members of such an object are read as trees in which a reader of events finds the kind
and the payload, in the order in which they stand. -/
theorem Carries.exists_members (h : Carries members event) :
    ∃ written : List Json.Member,
      written.map (fun field => (field.key, field.written)) = members ∧
        (fields eventKeys (.object (written.map Json.Member.tree)) =
            .ok ⟨true, [("kind", kindTree event.kind), ("payload", payloadTree event)]⟩ ∨
          fields eventKeys (.object (written.map Json.Member.tree)) =
            .ok ⟨true, [("payload", payloadTree event), ("kind", kindTree event.kind)]⟩) := by
  obtain ⟨written, hwritten, htrees⟩ := Json.exists_members (OwnTree event) h.denotes
  have hknown : (known eventKeys written).map (fun field => (field.key, field.written)) =
      members.filter fun entry => eventKeys.contains entry.1 := by
    rw [← hwritten, List.filter_map]
    rfl
  have htree : ∀ field ∈ known eventKeys written, OwnTree event field.key field.json :=
    fun field hfield => htrees field (List.mem_filter.mp hfield).1
  refine ⟨written, hwritten, ?_⟩
  rcases h.own with heq | heq
  · rw [heq] at hknown
    exact Or.inl (fields_pair hknown (by decide) (fun field hfield => (htree field hfield).1)
      fun field hfield => (htree field hfield).2)
  · rw [heq] at hknown
    exact Or.inr (fields_pair hknown (by decide) (fun field hfield => (htree field hfield).2)
      fun field hfield => (htree field hfield).1)

/-- A reader of events inside a message reads the event from such an object. A payload in front
of its kind is set aside first, at a depth that a payload has room in. -/
theorem readEvent_object {fieldTrees : List (Option String × Json)}
    (h : fields eventKeys (.object fieldTrees) =
        .ok ⟨true, [("kind", kindTree event.kind), ("payload", payloadTree event)]⟩ ∨
      fields eventKeys (.object fieldTrees) =
        .ok ⟨true, [("payload", payloadTree event), ("kind", kindTree event.kind)]⟩) :
    readEvent 1 (.object fieldTrees) = .ok event := by
  have hkind := readKind_kindTree event.kind
  rw [eventKeys] at h
  rcases h with h | h
  · have hpayload := readPayload_payloadTree false event
    simp [readEvent, h, Except.bind, bind, hkind, hpayload]
  · have hpayload := readPayload_payloadTree true event
    obtain ⟨value, haside⟩ := ofJson_object (sound_payloadMembers event) 124
    have haside : JsonValue.ofJson (JsonValue.maxDepth - 1 - 1) (payloadTree event) = .ok value :=
      haside
    simp [readEvent, h, Except.bind, bind, haside, hkind, hpayload]

end Events

section Messages

/-- The text of a node is read as that node. -/
theorem readNode_text (node : NodeId) : readNode (textTree node.text) = .ok node := by
  simp [readNode, asText_textTree, NodeId.parse?_text, bind, Except.bind, pure, Except.pure]

/-- A message is read back from the object of its node and of members that say what the event
is. -/
theorem parse_message {members : List (String × Bytes)} (message : Message)
    (h : Carries members message.event) :
    parse readMessage (writeObject [("origin", writeNode message.origin),
      ("event", writeObject members)]) = .ok message := by
  obtain ⟨written, rfl, hfields⟩ := h.exists_members
  have hevent := readEvent_object hfields
  have hdenotes : Denotes _ _ := denotes_writeObject [
    ⟨"origin", _, textTree message.origin.text, denotes_writeText message.origin.text⟩,
    ⟨"event", _, _, denotes_writeObject written⟩]
  have hread : readMessage (.object [(some "origin", textTree message.origin.text),
      (some "event", .object (written.map Json.Member.tree))]) = .ok message := by
    have hfound : fields ["origin", "event"] (.object [
        (some "origin", textTree message.origin.text),
        (some "event", .object (written.map Json.Member.tree))]) =
          .ok ⟨true, [("origin", textTree message.origin.text),
            ("event", .object (written.map Json.Member.tree))]⟩ := rfl
    rw [readMessage, hfound]
    simp [bind, Except.bind, Fields.required, Fields.find?, List.lookup_cons, readNode_text, hevent,
      pure, Except.pure]
  have hparse := parse_of_denotes hdenotes
  rw [parse]
  simp only [List.map_cons, List.map_nil, Json.Member.tree, writeNode] at hparse ⊢
  rw [hparse]
  simp only [hread]

/-- A message written as JSON is read back, also if the two keys of its event are swapped and
others are added beside them. -/
theorem messages_read_back (message : Message) :
    parse readMessage (writeMessage message) = .ok message ∧
      ∀ members, Carries members message.event →
        parse readMessage (writeObject [("origin", writeNode message.origin),
          ("event", writeObject members)]) = .ok message :=
  ⟨parse_message message (carries_written message.event), fun _ h => parse_message message h⟩

/-- Members of an event whose payload stands in front of its kind. Beside them are an array with
a number that has a fraction and an exponent, and an object with a repeated key. -/
def reorderedMembers (event : Event) : List (String × Bytes) := [
  ("seen", writeArray [writeNull, Bytes.ofText "-1.5e+3"]),
  ("payload", writePayload event),
  ("Kind", writeObject [("kind", writeBool true), ("kind", writeArray [])]),
  ("kind", writeKind event.kind)]

/-- An object with its keys swapped carries the same event. -/
theorem carries_reordered (event : Event) : Carries (reorderedMembers event) event where
  own := Or.inr rfl
  others := by
    have hbytes : Bytes.ofText "-1.5e+3" = [45] ++ [1].map Decimal.byte ++
        (46 :: [5].map Decimal.byte) ++ (101 :: ([43] ++ [3].map Decimal.byte)) := by decide +kernel
    have hnumber : ValueText (Bytes.ofText "-1.5e+3") :=
      hbytes ▸ .number (.parts (Or.inr rfl) (by decide) (by decide) (.present (by decide))
        (.present (Or.inl rfl) (Or.inr (Or.inl rfl)) (by decide)))
    have hseen : ValueText (writeArray [writeNull, Bytes.ofText "-1.5e+3"]) :=
      .array (List.forall_mem_cons.mpr ⟨.null, List.forall_mem_singleton.mpr hnumber⟩)
    have hnested : ValueText (writeObject [("kind", writeBool true), ("kind", writeArray [])]) :=
      .object (List.forall_mem_cons.mpr ⟨.bool true, List.forall_mem_singleton.mpr (.array nofun)⟩)
    simp only [reorderedMembers, List.forall_mem_cons]
    exact ⟨fun _ => hseen, nofun, fun _ => hnested, nofun, nofun⟩

/-- A message with its keys in another order and with further keys is read as that message. -/
theorem messages_read_back_reordered :
    parse readMessage (writeObject [("origin", writeNode ⟨Vector.replicate 32 10⟩),
      ("event", writeObject (reorderedMembers (.invalidateCache .status (some "ada"))))]) =
        .ok ⟨⟨Vector.replicate 32 10⟩, .invalidateCache .status (some "ada")⟩ :=
  (messages_read_back ⟨⟨Vector.replicate 32 10⟩, .invalidateCache .status (some "ada")⟩).2 _
    (carries_reordered (.invalidateCache .status (some "ada")))

end Messages

end PresenceTracker.Wire
