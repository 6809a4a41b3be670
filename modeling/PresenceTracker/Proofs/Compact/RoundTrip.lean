import PresenceTracker.Compact

/-!
# Reading back the compact encoding

Each taker gives back what its writer put in front of arbitrary further bytes, and the
flags say of each optional field whether it was written. So the reader of the compact
encoding gives back every record that has one.
-/

namespace PresenceTracker.Compact

/-- Taking as many bytes as were put in front splits them off. -/
theorem take_append (front rest : Bytes) :
    take front.length (front ++ rest) = .ok (front, rest) := by
  have hlen : ¬ (front ++ rest).length < front.length := by
    simp only [List.length_append]
    omega
  rw [take, if_neg hlen, List.splitAt_eq, List.take_left, List.drop_left]

theorem takeStatus_code (status : Status) (rest : Bytes) :
    takeStatus (status.code :: rest) = .ok (status, rest) := by
  simp only [takeStatus, takeByte, bind, Except.bind, Status.ofCode?_code]
  rfl

/-- A time survives its eight bytes, negative times included. -/
theorem takeMoment_encodeMoment (moment : Moment) (rest : Bytes) :
    takeMoment (encodeMoment moment ++ rest) = .ok (moment, rest) := by
  have hlen : (encodeMoment moment).length = 8 := Bytes.length_bigEndian 8 _
  have htake : take 8 (encodeMoment moment ++ rest) = .ok (encodeMoment moment, rest) := by
    rw [← hlen]
    exact take_append _ _
  have hword : Bytes.toNat (encodeMoment moment) = moment.toUInt64.toNat :=
    Bytes.toNat_bigEndian moment.toUInt64.toNat_lt
  have hback : (UInt64.ofNat (Bytes.toNat (encodeMoment moment))).toInt64 = moment := by
    rw [hword, UInt64.ofNat_toNat]
    rfl
  simp only [takeMoment, htake, bind, Except.bind, hback]
  rfl

/-- A text survives behind its length if it is short enough. -/
theorem takeText_encodeText {text : String} (h : fits text = true) (rest : Bytes) :
    takeText (encodeText text ++ rest) = .ok (text, rest) := by
  have hsize : text.utf8ByteSize < Nat.pow 256 2 := by
    have := of_decide_eq_true h
    simp only [maxTextBytes] at this
    exact Nat.lt_of_le_of_lt this (by decide)
  have hfirst : take 2 (encodeText text ++ rest) =
      .ok (Bytes.bigEndian 2 text.utf8ByteSize, Bytes.ofText text ++ rest) := by
    have := take_append (Bytes.bigEndian 2 text.utf8ByteSize) (Bytes.ofText text ++ rest)
    rwa [Bytes.length_bigEndian, ← List.append_assoc] at this
  have hsecond : take text.utf8ByteSize (Bytes.ofText text ++ rest) =
      .ok (Bytes.ofText text, rest) := by
    rw [← Bytes.length_ofText]
    exact take_append _ _
  simp only [takeText, hfirst, bind, Except.bind, Bytes.toNat_bigEndian hsize, hsecond,
    Bytes.text?_ofText]
  rfl

/-- A field that is there or not survives if its values do, under a flag that says whether
it is there. -/
theorem takeIf_encodeOption {α : Type} {encode : α → Bytes}
    {takeValue : Bytes → Except Fault (α × Bytes)} {field : Option α}
    (h : ∀ value, field = some value → ∀ rest, takeValue (encode value ++ rest) = .ok (value, rest))
    (rest : Bytes) :
    takeIf field.isSome takeValue (encodeOption encode field ++ rest) = .ok (field, rest) := by
  cases field with
  | none => rfl
  | some value =>
    simp only [takeIf, encodeOption, Option.isSome_some, if_true, h value rfl rest, bind,
      Except.bind]
    rfl

/-- Each flag says of its field whether it is set. -/
theorem isSet_flags (record : Record) :
    isSet manualFlag (flags record) = record.manual ∧
      isSet channelFlag (flags record) = record.channel.isSome ∧
      isSet restoreFlag (flags record) = record.restoreTo.isSome ∧
      isSet deadlineFlag (flags record) = record.deadline.isSome := by
  unfold flags
  generalize record.manual = manual
  generalize record.channel.isSome = channel
  generalize record.restoreTo.isSome = restore
  generalize record.deadline.isSome = deadline
  cases manual <;> cases channel <;> cases restore <;> cases deadline <;> decide

/-- The bytes of a record under a given flags byte. -/
def encodeUnder (mark : UInt8) (record : Record) : Bytes :=
  [currentVersion, record.status.code, mark] ++ encodeMoment record.lastActivity ++
    encodeText record.userId ++ encodeOption encodeText record.channel ++
    encodeOption (fun status => [status.code]) record.restoreTo ++
    encodeOption encodeMoment record.deadline

/-- A flags byte says of each field of a record whether it is set. -/
structure Marks (mark : UInt8) (record : Record) : Prop where
  /-- Whether the state was chosen. -/
  manual : isSet manualFlag mark = record.manual
  /-- Whether there is a channel. -/
  channel : isSet channelFlag mark = record.channel.isSome
  /-- Whether there is a state after the deadline. -/
  restore : isSet restoreFlag mark = record.restoreTo.isSome
  /-- Whether there is a deadline. -/
  deadline : isSet deadlineFlag mark = record.deadline.isSome

theorem flags_marks (record : Record) : Marks (flags record) record := by
  obtain ⟨hmanual, hchannel, hrestore, hdeadline⟩ := isSet_flags record
  exact ⟨hmanual, hchannel, hrestore, hdeadline⟩

theorem encode?_eq_some_iff {record : Record} {body : Bytes} :
    encode? record = some body ↔
      fits record.userId = true ∧ record.channel.all fits = true ∧
        body = encodeUnder (flags record) record := by
  have hbody : encode? record = if fits record.userId && record.channel.all fits then
      some (encodeUnder (flags record) record) else none := rfl
  rw [hbody]
  split
  case isTrue h =>
    obtain ⟨huser, hchannel⟩ := Bool.and_eq_true_iff.mp h
    rw [Option.some.injEq, eq_comm]
    exact ⟨fun heq => ⟨huser, hchannel, heq⟩, fun h => h.2.2⟩
  case isFalse h =>
    refine ⟨nofun, fun ⟨huser, hchannel, _⟩ => absurd ?_ h⟩
    rw [huser, hchannel, Bool.and_self]

/-- The bytes of a record under a flags byte that says which fields are set read back as the
record. -/
theorem decode_encodeUnder {mark : UInt8} {record : Record} (hmark : Marks mark record)
    (huser : fits record.userId = true) (hchannel : record.channel.all fits = true) :
    decode (encodeUnder mark record) = .ok record := by
  have htext : ∀ text, record.channel = some text → ∀ rest,
      takeText (encodeText text ++ rest) = .ok (text, rest) := fun text ht rest =>
    takeText_encodeText (by simpa [ht] using hchannel) rest
  have hstatus : ∀ status, record.restoreTo = some status → ∀ rest,
      takeStatus ([status.code] ++ rest) = .ok (status, rest) := fun status _ rest =>
    takeStatus_code status rest
  have hmoment : ∀ moment, record.deadline = some moment → ∀ rest,
      takeMoment (encodeMoment moment ++ rest) = .ok (moment, rest) := fun moment _ rest =>
    takeMoment_encodeMoment moment rest
  have hend := takeIf_encodeOption hmoment []
  rw [List.append_nil] at hend
  have hlong : ¬ (encodeUnder mark record).length < fixedBytes := by
    simp only [encodeUnder, List.length_append, encodeMoment, encodeText,
      Bytes.length_bigEndian, List.length_cons, List.length_nil, fixedBytes]
    omega
  unfold decode
  rw [if_neg hlong]
  simp only [encodeUnder, List.append_assoc, List.cons_append, List.nil_append, takeByte, bind,
    Except.bind, ne_eq, not_true_eq_false, if_false, takeStatus_code, takeMoment_encodeMoment,
    takeText_encodeText huser, hmark.manual, hmark.channel, hmark.restore, hmark.deadline,
    takeIf_encodeOption htext, takeIf_encodeOption hstatus, hend, List.isEmpty_nil, Bool.not_true]
  rfl

/-- The compact encoding of a record reads back as the record. -/
theorem decode_of_encode? {record : Record} {body : Bytes} (h : encode? record = some body) :
    decode body = .ok record := by
  obtain ⟨huser, hchannel, rfl⟩ := encode?_eq_some_iff.mp h
  exact decode_encodeUnder (flags_marks record) huser hchannel

end PresenceTracker.Compact
