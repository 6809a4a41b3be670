import Mathlib.Data.List.Induction
import PresenceTracker.Proofs.Compact.RoundTrip

/-!
# The bytes that the compact decoder accepts

What a taker gives back stood in front of what it leaves, in exactly the form that the writer
has for it. So a byte string that the decoder accepts is the encoding of the record it gives,
but for the four bits of the flags that have no meaning.
-/

namespace PresenceTracker.Bytes

/-- The number of a byte string fits its width. -/
theorem toNat_lt (bytes : Bytes) : toNat bytes < Nat.pow 256 bytes.length := by
  induction bytes using List.reverseRecOn with
  | nil => decide
  | append_singleton front byte ih =>
    have hbyte : byte.toNat < 256 := byte.toNat_lt
    have hpow : Nat.pow 256 (front ++ [byte]).length = Nat.pow 256 front.length * 256 := by
      rw [List.length_append]
      rfl
    rw [toNat_concat, hpow]
    omega

/-- The number of a byte string is written as these bytes again. -/
theorem bigEndian_toNat (bytes : Bytes) : bigEndian bytes.length (toNat bytes) = bytes := by
  induction bytes using List.reverseRecOn with
  | nil => rfl
  | append_singleton front byte ih =>
    have hbyte : byte.toNat < 256 := byte.toNat_lt
    have hfront : (toNat front * 256 + byte.toNat) / 256 = toNat front := by omega
    have hlast : UInt8.ofNat (toNat front * 256 + byte.toNat) = byte := by
      apply UInt8.toNat.inj
      rw [UInt8.toNat_ofNat']
      omega
    rw [List.length_append, toNat_concat]
    show bigEndian front.length _ ++ [_] = _
    rw [hfront, hlast, ih]

end PresenceTracker.Bytes

namespace PresenceTracker.Compact

section Taking

/-- A sequence of steps succeeds if the first one does and the others do with what it gives. -/
theorem bind_eq_ok_iff {α β : Type} {first : Except Fault α} {next : α → Except Fault β}
    {result : β} :
    first.bind next = .ok result ↔ ∃ value, first = .ok value ∧ next value = .ok result := by
  cases first with
  | error fault => simp [Except.bind]
  | ok value => simp [Except.bind]

theorem take_eq_ok_iff {count : Nat} {bytes front rest : Bytes} :
    take count bytes = .ok (front, rest) ↔ front.length = count ∧ bytes = front ++ rest := by
  constructor
  · intro h
    rw [take] at h
    split at h
    case isTrue => cases h
    case isFalse hlong =>
      rw [List.splitAt_eq] at h
      obtain ⟨rfl, rfl⟩ := Prod.mk.inj (Except.ok.inj h)
      refine ⟨?_, (List.take_append_drop count bytes).symm⟩
      rw [List.length_take]
      omega
  · rintro ⟨rfl, rfl⟩
    exact take_append front rest

theorem takeByte_eq_ok_iff {bytes rest : Bytes} {byte : UInt8} :
    takeByte bytes = .ok (byte, rest) ↔ bytes = byte :: rest := by
  cases bytes with
  | nil => simp [takeByte]
  | cons first others => simp [takeByte]

theorem takeStatus_eq_ok_iff {bytes rest : Bytes} {status : Status} :
    takeStatus bytes = .ok (status, rest) ↔ bytes = status.code :: rest := by
  constructor
  · intro h
    obtain ⟨⟨byte, others⟩, hbyte, hstatus⟩ := bind_eq_ok_iff.mp h
    rw [takeByte_eq_ok_iff.mp hbyte]
    dsimp only at hstatus
    split at hstatus
    case h_1 found hfound =>
      obtain ⟨rfl, rfl⟩ := Prod.mk.inj (Except.ok.inj hstatus)
      rw [Status.code_of_ofCode? hfound]
    case h_2 => cases hstatus
  · rintro rfl
    exact takeStatus_code status rest

/-- Eight bytes are the form of the time that they stand for. -/
theorem takeMoment_eq_ok_iff {bytes rest : Bytes} {moment : Moment} :
    takeMoment bytes = .ok (moment, rest) ↔ bytes = encodeMoment moment ++ rest := by
  constructor
  · intro h
    obtain ⟨⟨word, others⟩, hword, hmoment⟩ := bind_eq_ok_iff.mp h
    obtain ⟨hlength, rfl⟩ := take_eq_ok_iff.mp hword
    obtain ⟨rfl, rfl⟩ := Prod.mk.inj (Except.ok.inj hmoment)
    have hlt : Bytes.toNat word < UInt64.size := by
      have := Bytes.toNat_lt word
      rwa [hlength] at this
    have hback : (UInt64.ofNat (Bytes.toNat word)).toInt64.toUInt64.toNat = Bytes.toNat word :=
      UInt64.toNat_ofNat_of_lt hlt
    have hbytes := Bytes.bigEndian_toNat word
    rw [hlength] at hbytes
    rw [encodeMoment, hback, hbytes]
  · rintro rfl
    exact takeMoment_encodeMoment moment rest

/-- A text that is taken stood there behind its length, which two bytes have room for. -/
theorem takeText_eq_ok_iff {bytes rest : Bytes} {text : String} :
    takeText bytes = .ok (text, rest) ↔
      fits text = true ∧ bytes = encodeText text ++ rest := by
  constructor
  · intro h
    obtain ⟨⟨size, behind⟩, hsize, h⟩ := bind_eq_ok_iff.mp h
    obtain ⟨⟨raw, others⟩, hraw, htext⟩ := bind_eq_ok_iff.mp h
    obtain ⟨hwidth, rfl⟩ := take_eq_ok_iff.mp hsize
    obtain ⟨hlength, rfl⟩ := take_eq_ok_iff.mp hraw
    dsimp only at htext
    split at htext
    case h_2 => cases htext
    case h_1 found hfound =>
      obtain ⟨rfl, rfl⟩ := Prod.mk.inj (Except.ok.inj htext)
      have hraw : Bytes.ofText found = raw := Bytes.ofText_of_text? hfound
      have hsame : found.utf8ByteSize = Bytes.toNat size := by
        rw [← Bytes.length_ofText, hraw, hlength]
      have hbytes := Bytes.bigEndian_toNat size
      rw [hwidth] at hbytes
      refine ⟨?_, by rw [encodeText, hsame, hbytes, hraw, List.append_assoc]⟩
      have hlt := Bytes.toNat_lt size
      rw [hwidth] at hlt
      have hmax : Nat.pow 256 2 = maxTextBytes + 1 := rfl
      exact decide_eq_true (by omega)
  · rintro ⟨hfits, rfl⟩
    exact takeText_encodeText hfits rest

/-- A field that is taken if it is flagged stood there in its form, and is there if and only
if it is flagged. -/
theorem takeIf_eq_ok_iff {α : Type} {encode : α → Bytes} (Fits : α → Prop)
    {takeValue : Bytes → Except Fault (α × Bytes)}
    (h : ∀ bytes value rest,
      takeValue bytes = .ok (value, rest) ↔ Fits value ∧ bytes = encode value ++ rest)
    {flagged : Bool} {bytes rest : Bytes} {field : Option α} :
    takeIf flagged takeValue bytes = .ok (field, rest) ↔
      flagged = field.isSome ∧ (∀ value ∈ field, Fits value) ∧
        bytes = encodeOption encode field ++ rest := by
  cases flagged with
  | false =>
    have hnone : takeIf false takeValue bytes = .ok (none, bytes) := rfl
    rw [hnone]
    cases field with
    | none => simp [encodeOption]
    | some value => simp
  | true =>
    have hsome : takeIf true takeValue bytes =
        (takeValue bytes).bind fun taken => .ok (some taken.1, taken.2) := rfl
    rw [hsome, bind_eq_ok_iff]
    cases field with
    | none => simp
    | some value =>
      constructor
      · rintro ⟨⟨taken, others⟩, htaken, heq⟩
        obtain ⟨hvalue, rfl⟩ := Prod.mk.inj (Except.ok.inj heq)
        obtain rfl := Option.some.inj hvalue
        obtain ⟨hfits, hbytes⟩ := (h _ _ _).mp htaken
        exact ⟨rfl, fun _ hmem => Option.mem_some.mp hmem ▸ hfits, hbytes⟩
      · rintro ⟨-, hfits, hbytes⟩
        exact ⟨(value, rest), (h _ _ _).mpr ⟨hfits value rfl, hbytes⟩, rfl⟩

end Taking

/-- What the decoder accepts are the bytes of a record under some flags byte that says which of
its fields are set. -/
theorem decode_eq_ok_iff {bytes : Bytes} {record : Record} :
    decode bytes = .ok record ↔
      fits record.userId = true ∧ record.channel.all fits = true ∧
        ∃ mark, Marks mark record ∧ bytes = encodeUnder mark record := by
  constructor
  · intro h
    unfold decode at h
    split at h
    case isTrue => cases h
    case isFalse =>
      obtain ⟨⟨version, afterVersion⟩, hversion, h⟩ := bind_eq_ok_iff.mp h
      dsimp only at h
      split at h
      case isTrue => cases h
      case isFalse hcurrent =>
        obtain ⟨⟨status, afterStatus⟩, hstatus, h⟩ := bind_eq_ok_iff.mp h
        obtain ⟨⟨mark, afterMark⟩, hmark, h⟩ := bind_eq_ok_iff.mp h
        obtain ⟨⟨activity, afterActivity⟩, hactivity, h⟩ := bind_eq_ok_iff.mp h
        obtain ⟨⟨user, afterUser⟩, huser, h⟩ := bind_eq_ok_iff.mp h
        obtain ⟨⟨channel, afterChannel⟩, hchannel, h⟩ := bind_eq_ok_iff.mp h
        obtain ⟨⟨restoreTo, afterRestore⟩, hrestore, h⟩ := bind_eq_ok_iff.mp h
        obtain ⟨⟨deadline, behind⟩, hdeadline, h⟩ := bind_eq_ok_iff.mp h
        dsimp only at hmark hactivity huser hchannel hrestore hdeadline h
        split at h
        case isTrue => cases h
        case isFalse hend =>
          -- each part stands in front of what the next one was taken from
          obtain ⟨huserFits, huserBytes⟩ := takeText_eq_ok_iff.mp huser
          obtain ⟨hchannelSet, hchannelFits, hchannelBytes⟩ :=
            (takeIf_eq_ok_iff (fits · = true) fun _ _ _ => takeText_eq_ok_iff).mp hchannel
          obtain ⟨hrestoreSet, -, hrestoreBytes⟩ :=
            (takeIf_eq_ok_iff (fun _ => True) fun _ _ _ => by
              rw [takeStatus_eq_ok_iff, true_and, ← List.singleton_append]).mp hrestore
          obtain ⟨hdeadlineSet, -, hdeadlineBytes⟩ :=
            (takeIf_eq_ok_iff (fun _ => True) fun _ _ _ => by
              rw [takeMoment_eq_ok_iff, true_and]).mp hdeadline
          obtain rfl := Except.ok.inj h
          obtain rfl : version = currentVersion := not_not.mp hcurrent
          obtain rfl : behind = [] := by simpa using hend
          have hbytes : bytes = encodeUnder mark
              ⟨user, status, isSet manualFlag mark, activity, channel, restoreTo, deadline⟩ := by
            rw [takeByte_eq_ok_iff.mp hversion, takeStatus_eq_ok_iff.mp hstatus,
              takeByte_eq_ok_iff.mp hmark, takeMoment_eq_ok_iff.mp hactivity, huserBytes,
              hchannelBytes, hrestoreBytes, hdeadlineBytes]
            simp [encodeUnder]
          have hfits : channel.all fits = true := by
            rw [Option.all_eq_true]
            exact hchannelFits
          exact ⟨huserFits, hfits, mark, ⟨rfl, hchannelSet, hrestoreSet, hdeadlineSet⟩, hbytes⟩
  · rintro ⟨huser, hchannel, mark, hmark, rfl⟩
    exact decode_encodeUnder hmark huser hchannel

/-- The bits of a flags byte that have no meaning make no difference. -/
theorem isSet_and_meaning (mark : UInt8) :
    isSet manualFlag (mark &&& 15) = isSet manualFlag mark ∧
      isSet channelFlag (mark &&& 15) = isSet channelFlag mark ∧
      isSet restoreFlag (mark &&& 15) = isSet restoreFlag mark ∧
      isSet deadlineFlag (mark &&& 15) = isSet deadlineFlag mark := by
  have hall : ∀ code : Fin 256, ∀ flag ∈ [manualFlag, channelFlag, restoreFlag, deadlineFlag],
      isSet flag (UInt8.ofNat code.val &&& 15) = isSet flag (UInt8.ofNat code.val) := by
    decide +kernel
  have hmark := hall ⟨mark.toNat, mark.toNat_lt⟩
  rw [UInt8.ofNat_toNat] at hmark
  refine ⟨hmark _ ?_, hmark _ ?_, hmark _ ?_, hmark _ ?_⟩ <;> decide

/-- A flags byte that marks the fields of a record is the record's but for the bits that have
no meaning. -/
theorem marks_iff {mark : UInt8} {record : Record} :
    Marks mark record ↔ mark &&& 15 = flags record := by
  have hall : ∀ code : Fin 256, UInt8.ofNat code.val &&& 15 =
      (if isSet manualFlag (UInt8.ofNat code.val) then manualFlag else 0) |||
      (if isSet channelFlag (UInt8.ofNat code.val) then channelFlag else 0) |||
      (if isSet restoreFlag (UInt8.ofNat code.val) then restoreFlag else 0) |||
      (if isSet deadlineFlag (UInt8.ofNat code.val) then deadlineFlag else 0) := by
    decide +kernel
  have hmark := hall ⟨mark.toNat, mark.toNat_lt⟩
  rw [UInt8.ofNat_toNat] at hmark
  constructor
  · intro h
    rw [hmark, h.manual, h.channel, h.restore, h.deadline, flags]
  · intro h
    have hflags := flags_marks record
    rw [← h] at hflags
    obtain ⟨hmanual, hchannel, hrestore, hdeadline⟩ := isSet_and_meaning mark
    exact ⟨hmanual.symm.trans hflags.manual, hchannel.symm.trans hflags.channel,
      hrestore.symm.trans hflags.restore, hdeadline.symm.trans hflags.deadline⟩

/-- A byte string without the bits of its flags that have no meaning. -/
def clearSpare (bytes : Bytes) : Bytes := bytes.modify 2 (· &&& 15)

theorem clearSpare_encodeUnder (mark : UInt8) (record : Record) :
    clearSpare (encodeUnder mark record) = encodeUnder (mark &&& 15) record := rfl

/-- What is left of the bytes of a record under its flags when the bits without meaning are
cleared stood there under some flags byte that marks the same fields. -/
theorem eq_encodeUnder_of_clearSpare {bytes : Bytes} {record : Record} (hlong : 3 ≤ bytes.length)
    (h : clearSpare bytes = encodeUnder (flags record) record) :
    ∃ mark, Marks mark record ∧ bytes = encodeUnder mark record := by
  match bytes, hlong with
  | version :: status :: mark :: rest, _ =>
    obtain ⟨hversion, h⟩ := List.cons.inj h
    obtain ⟨hstatus, h⟩ := List.cons.inj h
    obtain ⟨hmark, hrest⟩ := List.cons.inj h
    refine ⟨mark, marks_iff.mpr hmark, ?_⟩
    have hfront : version :: status :: mark :: rest =
        currentVersion :: record.status.code :: mark :: rest := by rw [hversion, hstatus]
    have hbehind : mark :: rest = mark :: _ := congrArg (List.cons mark) hrest
    rw [hfront, hbehind]
    rfl

/-- A byte string is accepted as a record if and only if it is the record's encoding but for the
bits of its flags that have no meaning. -/
theorem decode_eq_ok_iff_encode? {bytes : Bytes} {record : Record} :
    decode bytes = .ok record ↔
      3 ≤ bytes.length ∧ encode? record = some (clearSpare bytes) := by
  rw [decode_eq_ok_iff, encode?_eq_some_iff]
  constructor
  · rintro ⟨huser, hchannel, mark, hmark, rfl⟩
    refine ⟨?_, huser, hchannel, ?_⟩
    · simp only [encodeUnder, List.length_append, List.length_cons, List.length_nil]
      omega
    · rw [clearSpare_encodeUnder, marks_iff.mp hmark]
  · rintro ⟨hlong, huser, hchannel, hbytes⟩
    exact ⟨huser, hchannel, eq_encodeUnder_of_clearSpare hlong hbytes⟩

/-- Every fault of the decoder is reported as a failure of the same kind. -/
theorem Fault.kind_failure (fault : Fault) : fault.failure.kind = .serialization := by
  cases fault <;> rfl

end PresenceTracker.Compact
