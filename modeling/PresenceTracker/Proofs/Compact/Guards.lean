import PresenceTracker.Proofs.Compact.Exact

/-!
# Reading behind guards

The decoder as one that takes bytes without looking whether they are there: it asks for a
number of bytes first, and what it takes afterwards is meant to be covered by what it asked
for. A taking past the end of the bytes is no result at all. No input makes this decoder take
a byte past the end, and it gives what the decoder gives that looks each time.
-/

namespace PresenceTracker.Compact

/-- What a reader gives that does not look before it takes: nothing if it took a byte past the
end. -/
abbrev Blind (α : Type) := ExceptT Fault Option α

namespace Blind

/-- A reader that looks before it takes never takes a byte past the end. -/
def looking {α : Type} (result : Except Fault α) : Blind α := ExceptT.mk (some result)

/-- Asks for a number of bytes. -/
def need (count : Nat) (bytes : Bytes) : Blind Unit :=
  if bytes.length < count then throw .truncated else pure ()

/-- Takes a number of bytes from the front without looking. -/
def get (count : Nat) (bytes : Bytes) : Blind (Bytes × Bytes) :=
  ExceptT.mk (if bytes.length < count then none else some (.ok (bytes.splitAt count)))

/-- Takes one byte from the front without looking. -/
def getByte (bytes : Bytes) : Blind (UInt8 × Bytes) :=
  ExceptT.mk (bytes.head?.map fun byte => .ok (byte, bytes.tail))

/-- Takes a state from the front without looking. -/
def getStatus (bytes : Bytes) : Blind (Status × Bytes) := do
  let (byte, rest) ← getByte bytes
  match Status.ofCode? byte with
  | some status => return (status, rest)
  | none => throw (.statusCode byte)

/-- Takes a time from the front without looking. -/
def getMoment (bytes : Bytes) : Blind (Moment × Bytes) := do
  let (word, rest) ← get 8 bytes
  return ((UInt64.ofNat (Bytes.toNat word)).toInt64, rest)

/-- Asks for the two bytes of a length, and then for as many bytes as the length says. -/
def getText (bytes : Bytes) : Blind (String × Bytes) := do
  need 2 bytes
  let (size, rest) ← get 2 bytes
  need (Bytes.toNat size) rest
  let (raw, rest) ← get (Bytes.toNat size) rest
  match Bytes.text? raw with
  | some text => return (text, rest)
  | none => throw .notText

/-- Takes a field from the front if it is flagged. -/
def getIf {α : Type} (flagged : Bool) (getValue : Bytes → Blind (α × Bytes)) (bytes : Bytes) :
    Blind (Option α × Bytes) :=
  if flagged then do
    let (value, rest) ← getValue bytes
    return (some value, rest)
  else return (none, bytes)

/-- Asks for the fields of fixed width at once, and then for each part whose width the bytes
before it decide. -/
def decode (bytes : Bytes) : Blind Record := do
  need fixedBytes bytes
  let (version, bytes) ← getByte bytes
  if version ≠ currentVersion then throw (.version version)
  let (status, bytes) ← getStatus bytes
  let (flags, bytes) ← getByte bytes
  let (lastActivity, bytes) ← getMoment bytes
  let (userId, bytes) ← getText bytes
  let (channel, bytes) ← getIf (isSet channelFlag flags) getText bytes
  let (restoreTo, bytes) ← getIf (isSet restoreFlag flags)
    (fun bytes => do need 1 bytes; getStatus bytes) bytes
  let (deadline, bytes) ← getIf (isSet deadlineFlag flags)
    (fun bytes => do need 8 bytes; getMoment bytes) bytes
  if !bytes.isEmpty then throw .trailing
  return {
    userId, status, lastActivity, channel, restoreTo, deadline
    manual := isSet manualFlag flags }

/-- Readers stay together after a step in which they were together. -/
theorem bind_eq {α β : Type} {blind : Blind α} {first : Except Fault α} {go : α → Blind β}
    {next : α → Except Fault β} (hfirst : blind = looking first)
    (hnext : ∀ value, first = .ok value → go value = looking (next value)) :
    blind >>= go = looking (first.bind next) := by
  rw [hfirst]
  cases first with
  | error fault => rfl
  | ok value => exact hnext value rfl

/-- Whoever asks first takes what is there, and finds the fault with less that a reader finds
who looks. -/
theorem need_bind {α : Type} {count : Nat} {bytes : Bytes} {blind : Blind α}
    {result : Except Fault α} (hthere : count ≤ bytes.length → blind = looking result)
    (hshort : bytes.length < count → result = .error .truncated) :
    (do need count bytes; blind) = looking result := by
  unfold need
  split
  case isTrue h =>
    rw [hshort h]
    rfl
  case isFalse h => exact hthere (Nat.not_lt.mp h)

/-- Bytes that are there are taken. -/
theorem get_eq {count : Nat} {bytes : Bytes} (h : count ≤ bytes.length) :
    get count bytes = looking (take count bytes) := by
  have hthere : ¬ bytes.length < count := Nat.not_lt.mpr h
  rw [get, take, if_neg hthere, if_neg hthere]
  rfl

/-- Where too few bytes are left taking them fails as truncated. -/
theorem take_short {count : Nat} {bytes : Bytes} (h : bytes.length < count) :
    take count bytes = .error .truncated := if_pos h

/-- Where a byte is left looking at it gives what taking it gives. -/
theorem getByte_eq {bytes : Bytes} (h : 1 ≤ bytes.length) :
    getByte bytes = looking (takeByte bytes) := by
  cases bytes with
  | nil => cases h
  | cons byte rest => rfl

/-- So it is with the byte of a status. -/
theorem getStatus_eq {bytes : Bytes} (h : 1 ≤ bytes.length) :
    getStatus bytes = looking (takeStatus bytes) := by
  refine bind_eq (getByte_eq h) fun taken _ => ?_
  dsimp only
  cases Status.ofCode? taken.1 <;> rfl

/-- So it is with a moment, where eight bytes are left. -/
theorem getMoment_eq {bytes : Bytes} (h : 8 ≤ bytes.length) :
    getMoment bytes = looking (takeMoment bytes) :=
  bind_eq (get_eq h) fun _ _ => rfl

/-- A status that is asked for first is looked at as it is taken. -/
theorem need_getStatus (bytes : Bytes) :
    (do need 1 bytes; getStatus bytes) = looking (takeStatus bytes) := by
  refine need_bind getStatus_eq fun hshort => ?_
  obtain rfl : bytes = [] := List.length_eq_zero_iff.mp (by omega)
  rfl

/-- So it is with a moment that is asked for first. -/
theorem need_getMoment (bytes : Bytes) :
    (do need 8 bytes; getMoment bytes) = looking (takeMoment bytes) := by
  refine need_bind getMoment_eq fun hshort => ?_
  rw [takeMoment, take_short hshort]
  rfl

/-- A text, which asks for its length and then for so many bytes, is looked at as it is taken. -/
theorem getText_eq (bytes : Bytes) : getText bytes = looking (takeText bytes) := by
  refine need_bind (fun hthere => ?_) fun hshort => ?_
  · refine bind_eq (get_eq hthere) fun size _ => ?_
    refine need_bind (fun hthere => ?_) fun hshort => ?_
    · refine bind_eq (get_eq hthere) fun raw _ => ?_
      dsimp only
      cases Bytes.text? raw.1 <;> rfl
    · dsimp only
      rw [take_short hshort]
      rfl
  · rw [takeText, take_short hshort]
    rfl

/-- A field behind a flag is looked at as it is taken, if it is so without the flag. -/
theorem getIf_eq {α : Type} {getValue : Bytes → Blind (α × Bytes)}
    {takeValue : Bytes → Except Fault (α × Bytes)}
    (h : ∀ bytes, getValue bytes = looking (takeValue bytes)) (flagged : Bool) (bytes : Bytes) :
    getIf flagged getValue bytes = looking (takeIf flagged takeValue bytes) := by
  cases flagged with
  | false => rfl
  | true => exact bind_eq (h bytes) fun _ _ => rfl

/-- No input makes the decoder that asks first take a byte past the end, and it gives what the
decoder gives that looks each time. -/
theorem decode_eq (bytes : Bytes) : decode bytes = looking (Compact.decode bytes) := by
  refine need_bind (fun hthere => ?_) fun hshort => ?_
  · have hlong : ¬ bytes.length < fixedBytes := Nat.not_lt.mpr hthere
    rw [fixedBytes] at hthere
    rw [Compact.decode, if_neg hlong]
    refine bind_eq (getByte_eq (by omega)) ?_
    rintro ⟨version, afterVersion⟩ hversion
    have hbytes := takeByte_eq_ok_iff.mp hversion
    rw [hbytes, List.length_cons] at hthere
    dsimp only
    split
    · rfl
    · refine bind_eq (getStatus_eq (by omega)) ?_
      rintro ⟨status, afterStatus⟩ hstatus
      have hbytes := takeStatus_eq_ok_iff.mp hstatus
      rw [hbytes, List.length_cons] at hthere
      refine bind_eq (getByte_eq (by dsimp only; omega)) ?_
      rintro ⟨mark, afterMark⟩ hmark
      have hbytes := takeByte_eq_ok_iff.mp hmark
      dsimp only at hbytes
      rw [hbytes, List.length_cons] at hthere
      refine bind_eq (getMoment_eq (by dsimp only; omega)) fun activity _ => ?_
      refine bind_eq (getText_eq _) fun user _ => ?_
      refine bind_eq (getIf_eq getText_eq _ _) fun channel _ => ?_
      refine bind_eq (getIf_eq need_getStatus _ _) fun restore _ => ?_
      refine bind_eq (getIf_eq need_getMoment _ _) fun deadline _ => ?_
      dsimp only
      split <;> rfl
  · rw [Compact.decode, if_pos hshort]
    rfl

end Blind

/-- The decoder accepts exactly the encodings of records, but for the bits of the flags that
have no meaning. It refuses every other byte string as one that cannot be read, and it never
takes a byte past the end. -/
theorem decode_exact (bytes : Bytes) :
    (∀ record, decode bytes = .ok record ↔
        3 ≤ bytes.length ∧ encode? record = some (clearSpare bytes)) ∧
      ((∀ record, ¬(3 ≤ bytes.length ∧ encode? record = some (clearSpare bytes))) →
        ∃ fault, decode bytes = .error fault ∧ fault.failure.kind = .serialization) ∧
      (Blind.decode bytes).run = some (decode bytes) := by
  have haccepts : ∀ record, decode bytes = .ok record ↔
      3 ≤ bytes.length ∧ encode? record = some (clearSpare bytes) := fun record =>
    decode_eq_ok_iff_encode?
  refine ⟨haccepts, fun hnone => ?_, Blind.decode_eq bytes⟩
  cases hresult : decode bytes with
  | ok record => exact absurd ((haccepts record).mp hresult) (hnone record)
  | error fault => exact ⟨fault, rfl, fault.kind_failure⟩

end PresenceTracker.Compact
