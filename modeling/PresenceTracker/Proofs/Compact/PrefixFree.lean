import PresenceTracker.Proofs.Compact.Exact

/-!
# Accepted byte strings are not continued

Each taker goes through the bytes from the front and never changes its mind when more of them
follow: what it took stays taken, and only the fault of running out of bytes can go away. So an
accepted byte string is cut short nowhere without that fault, whichever field the cut falls into,
and whatever follows it is left over.
-/

namespace PresenceTracker.Compact

/-- What came out for some bytes tells what comes out with more of them: what follows from the
value, or the same fault, unless the bytes had run out. -/
structure Foretells {α β : Type} (follows : α → Except Fault β) (early : Except Fault α)
    (late : Except Fault β) : Prop where
  /-- What was accepted. -/
  accepted : ∀ value, early = .ok value → late = follows value
  /-- A fault stays unless the bytes had run out. -/
  refused : ∀ fault, early = .error fault → fault ≠ .truncated → late = .error fault

/-- A taker for which what was taken stays taken, with what follows left behind it. -/
def Firm {α : Type} (takeValue : Bytes → Except Fault (α × Bytes)) : Prop :=
  ∀ bytes more, Foretells (fun taken => .ok (taken.1, taken.2 ++ more)) (takeValue bytes)
    (takeValue (bytes ++ more))

/-- A reader of whole byte strings that refuses whatever follows an accepted one. -/
def Decisive {β : Type} (read : Bytes → Except Fault β) : Prop :=
  ∀ bytes more, more ≠ [] → Foretells (fun _ => .error .trailing) (read bytes)
    (read (bytes ++ more))

section Sequences

variable {α β : Type}

/-- A value that is accepted at once foretells what follows from it. -/
theorem foretells_ok {follows : α → Except Fault β} (value : α) :
    Foretells follows (.ok value) (follows value) :=
  ⟨fun _ h => Except.ok.inj h ▸ rfl, nofun⟩

/-- A fault foretells itself. -/
theorem foretells_error {follows : α → Except Fault β} (fault : Fault) :
    Foretells follows (.error fault) (.error fault) :=
  ⟨nofun, fun _ h _ => Except.error.inj h ▸ rfl⟩

/-- Bytes that have run out tell nothing. -/
theorem foretells_truncated {follows : α → Except Fault β} (late : Except Fault β) :
    Foretells follows (.error .truncated) late :=
  ⟨nofun, fun _ h hfault => absurd (Except.error.inj h).symm hfault⟩

/-- What is read behind a value that was taken is foretold if it is so behind each value. -/
theorem Foretells.bind {more : Bytes} {first longer : Except Fault (α × Bytes)} {γ : Type}
    {follows : β → Except Fault γ} {next : α × Bytes → Except Fault β}
    {last : α × Bytes → Except Fault γ}
    (hfirst : Foretells (fun taken => .ok (taken.1, taken.2 ++ more)) first longer)
    (hnext : ∀ value rest, Foretells follows (next (value, rest)) (last (value, rest ++ more))) :
    Foretells follows (first.bind next) (longer.bind last) := by
  cases first with
  | ok taken =>
    rw [hfirst.accepted taken rfl]
    exact hnext taken.1 taken.2
  | error fault =>
    by_cases hfault : fault = .truncated
    · rw [hfault]
      exact foretells_truncated _
    · rw [hfirst.refused fault rfl hfault]
      exact foretells_error fault

/-- Firm takers one after the other are firm. -/
theorem Firm.bind {first : Bytes → Except Fault (α × Bytes)}
    {next : α × Bytes → Except Fault (β × Bytes)} (hfirst : Firm first)
    (hnext : ∀ value, Firm fun rest => next (value, rest)) :
    Firm fun bytes => (first bytes).bind next := fun bytes more =>
  (hfirst bytes more).bind fun value rest => hnext value rest more

end Sequences

section Takers

variable {α : Type}

/-- A taker that takes nothing is firm. -/
theorem firm_ok (value : α) : Firm fun rest => .ok (value, rest) := fun rest _ =>
  foretells_ok (value, rest)

/-- A taker that always refuses is firm. -/
theorem firm_error (fault : Fault) : Firm fun _ => (.error fault : Except Fault (α × Bytes)) :=
  fun _ _ => foretells_error fault

/-- A number of bytes that were there are taken whatever follows them. -/
theorem take_firm (count : Nat) : Firm (take count) := by
  intro bytes more
  cases htake : take count bytes with
  | ok taken =>
    obtain ⟨hlength, rfl⟩ := take_eq_ok_iff.mp htake
    have hlonger := take_eq_ok_iff.mpr ⟨hlength, List.append_assoc taken.1 taken.2 more⟩
    rw [hlonger]
    exact foretells_ok taken
  | error fault =>
    rw [take] at htake
    split at htake
    · rw [← Except.error.inj htake]
      exact foretells_truncated _
    · cases htake

/-- One byte is taken whatever follows it. -/
theorem takeByte_firm : Firm takeByte := by
  intro bytes more
  cases bytes with
  | nil => exact foretells_truncated _
  | cons byte rest => exact foretells_ok (byte, rest)

/-- The byte of a status is taken whatever follows it, or is refused as no status. -/
theorem takeStatus_firm : Firm takeStatus := by
  refine takeByte_firm.bind fun byte => ?_
  dsimp only
  cases Status.ofCode? byte with
  | some status => exact firm_ok status
  | none => exact firm_error (.statusCode byte)

/-- The eight bytes of a moment are taken whatever follows them. -/
theorem takeMoment_firm : Firm takeMoment :=
  (take_firm 8).bind fun word => firm_ok (UInt64.ofNat (Bytes.toNat word)).toInt64

/-- A length that is cut announces nothing, and a text that is cut is not looked at. -/
theorem takeText_firm : Firm takeText := by
  refine (take_firm 2).bind fun size => (take_firm (Bytes.toNat size)).bind fun raw => ?_
  dsimp only
  cases Bytes.text? raw with
  | some text => exact firm_ok text
  | none => exact firm_error .notText

/-- A field behind a flag is taken firmly if it is so without the flag. -/
theorem takeIf_firm {takeValue : Bytes → Except Fault (α × Bytes)} (h : Firm takeValue)
    (flagged : Bool) : Firm (takeIf flagged takeValue) := by
  cases flagged with
  | false => exact firm_ok none
  | true => exact h.bind fun value => firm_ok (some value)

end Takers

/-- Whatever stands behind the last field is refused. -/
theorem foretells_end {β : Type} (value : β) (rest : Bytes) {more : Bytes} (hmore : more ≠ []) :
    Foretells (fun _ => .error .trailing)
      (if !rest.isEmpty then .error .trailing else .ok value)
      (if !(rest ++ more).isEmpty then .error .trailing else .ok value) := by
  have hlonger : (!(rest ++ more).isEmpty) = true := by simp [hmore]
  rw [if_pos hlonger]
  split
  · exact foretells_error .trailing
  · exact foretells_ok value

/-- The decoder looks for the fields of fixed width, takes one field after the other and then
looks for the end. -/
theorem decode_decisive : Decisive decode := by
  intro bytes more hmore
  unfold decode
  split
  case isTrue => exact foretells_truncated _
  case isFalse hlong =>
    have hlonger : ¬ (bytes ++ more).length < fixedBytes := by
      rw [List.length_append]
      omega
    rw [if_neg hlonger]
    refine (takeByte_firm bytes more).bind fun version _ => ?_
    dsimp only
    split
    case isTrue => exact foretells_error (.version version)
    case isFalse =>
      refine (takeStatus_firm _ more).bind fun status _ => ?_
      refine (takeByte_firm _ more).bind fun flags _ => ?_
      refine (takeMoment_firm _ more).bind fun activity _ => ?_
      refine (takeText_firm _ more).bind fun user _ => ?_
      refine (takeIf_firm takeText_firm _ _ more).bind fun channel _ => ?_
      refine (takeIf_firm takeStatus_firm _ _ more).bind fun restore _ => ?_
      refine (takeIf_firm takeMoment_firm _ _ more).bind fun deadline rest => ?_
      exact foretells_end _ rest hmore

/-- Of a byte string that the decoder accepts, it refuses every strict beginning as cut short and
every continuation for what is left over. Both faults are failures to read what was written. -/
theorem accepted_prefix_free {bytes : Bytes} {record : Record} (h : decode bytes = .ok record) :
    (∀ front, front <+: bytes → front ≠ bytes → decode front = .error .truncated) ∧
      (∀ more, more ≠ [] → decode (bytes ++ more) = .error .trailing) ∧
      Fault.truncated.failure.kind = .serialization ∧
      Fault.trailing.failure.kind = .serialization := by
  refine ⟨fun front hfront hstrict => ?_, fun more hmore => ?_, Fault.kind_failure _,
    Fault.kind_failure _⟩
  · obtain ⟨more, rfl⟩ := hfront
    have hmore : more ≠ [] := fun hnil => hstrict (by rw [hnil, List.append_nil])
    have hwhole := decode_decisive front more hmore
    rw [h] at hwhole
    cases hresult : decode front with
    | ok shorter =>
      -- then the whole would have been refused for what is left over
      cases hwhole.accepted shorter hresult
    | error fault =>
      by_cases hfault : fault = .truncated
      · rw [hfault]
      · cases hwhole.refused fault hresult hfault
  · exact (decode_decisive bytes more hmore).accepted record h

/-- A chosen do-not-disturb with every field, under flags with all bits that have no meaning. -/
def markedBytes : Bytes :=
  encodeUnder 255 ⟨"ada", .dnd, true, 5000, some "town", some .away, some 6000⟩

/-- A record with all its fields is refused when it is cut within the channel or behind the state
that follows its deadline, and when a byte more follows. -/
theorem accepted_prefix_free_of_markedBytes :
    decode markedBytes = .ok ⟨"ada", .dnd, true, 5000, some "town", some .away, some 6000⟩ ∧
      decode (markedBytes.take 20) = .error .truncated ∧
      decode (markedBytes.take 23) = .error .truncated ∧
      decode (markedBytes ++ [0]) = .error .trailing := by
  have hread : decode markedBytes =
      .ok ⟨"ada", .dnd, true, 5000, some "town", some .away, some 6000⟩ := by decide +kernel
  obtain ⟨hcut, hmore, -, -⟩ := accepted_prefix_free hread
  refine ⟨hread, hcut _ (List.take_prefix 20 _) ?_, hcut _ (List.take_prefix 23 _) ?_,
    hmore [0] (by decide)⟩ <;> decide +kernel

end PresenceTracker.Compact
