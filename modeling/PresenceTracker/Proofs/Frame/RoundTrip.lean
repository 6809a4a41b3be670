import PresenceTracker.Proofs.Compact.RoundTrip
import PresenceTracker.Proofs.Wire.Record
import PresenceTracker.Frame

/-!
# Reading back cache frames of records

A record is framed in the compact encoding if its texts are short enough, and as JSON
otherwise. Either way the frame reads back as the record, so that a cache holds exactly the
records that were put into it.
-/

namespace PresenceTracker.FrameCodec

/-- The compact form of a record reads back behind its tag. -/
theorem decode_compact {value : Record} {body : Bytes} (h : Compact.encode? value = some body) :
    record.decode (compactTag :: body) = .ok value := by
  have hread : Compact.decode body = .ok value := Compact.decode_of_encode? h
  calc record.decode (compactTag :: body)
    _ = (Compact.decode body).mapError Compact.Fault.failure := rfl
    _ = (Except.ok value).mapError Compact.Fault.failure := by rw [hread]
    _ = .ok value := rfl

/-- The frame of a record reads back as the record, whatever its texts and times. -/
theorem decode_encode_record (value : Record) :
    record.decode (record.encode value) = .ok value := by
  unfold encode
  split
  case h_1 body hbody => exact decode_compact hbody
  case h_2 => exact Wire.parse_writeRecord value

/-- A record has a compact form if and only if its texts are short enough for it. -/
theorem isSome_encode?_iff (value : Record) :
    (Compact.encode? value).isSome = true ↔ value.userId.utf8ByteSize ≤ Compact.maxTextBytes ∧
      ∀ channel ∈ value.channel, channel.utf8ByteSize ≤ Compact.maxTextBytes := by
  have hchannel : value.channel.all Compact.fits = true ↔
      ∀ channel ∈ value.channel, channel.utf8ByteSize ≤ Compact.maxTextBytes := by
    simp [Option.all_eq_true, Compact.fits]
  rw [Option.isSome_iff_exists, ← hchannel]
  constructor
  · rintro ⟨body, hbody⟩
    obtain ⟨huser, hall, -⟩ := Compact.encode?_eq_some_iff.mp hbody
    exact ⟨of_decide_eq_true huser, hall⟩
  · rintro ⟨huser, hall⟩
    exact ⟨_, Compact.encode?_eq_some_iff.mpr ⟨decide_eq_true huser, hall, rfl⟩⟩

/-- Both kinds of frames of a record read back as the record: JSON text always, and the compact
form, which there is if and only if no text of the record takes more than 65535 bytes. -/
theorem record_frames_read_back (value : Record) :
    record.decode (0 :: Wire.writeRecord value) = .ok value ∧
      ((Compact.encode? value).isSome = true ↔ value.userId.utf8ByteSize ≤ 65535 ∧
        ∀ channel ∈ value.channel, channel.utf8ByteSize ≤ 65535) ∧
      (∀ body ∈ Compact.encode? value, record.decode (1 :: body) = .ok value) ∧
      record.decode (record.encode value) = .ok value := by
  have hcompact : ∀ body ∈ Compact.encode? value, record.decode (1 :: body) = .ok value :=
    fun _ hbody => decode_compact hbody
  exact ⟨Wire.parse_writeRecord value, isSome_encode?_iff value, hcompact,
    decode_encode_record value⟩

end PresenceTracker.FrameCodec
