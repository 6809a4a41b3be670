import PresenceTracker.Text

/-!
# Byte strings

Frames, stored values and messages are byte strings. A text is turned into its UTF-8 bytes, and a
byte string back into the text it is the UTF-8 form of, if it is one. A natural number is written as
a fixed number of bytes, the most significant first; writing and reading are inverse to each other
for numbers that fit. Two digits of base sixteen stand for each byte.
-/

namespace PresenceTracker

/-- A string of bytes. -/
abbrev Bytes := List UInt8

namespace Bytes

/-- The UTF-8 form of a text. -/
def ofText (text : String) : Bytes := text.toByteArray.data.toList

/-- The text whose UTF-8 form this is, if there is one. -/
def text? (bytes : Bytes) : Option String := String.fromUTF8? ⟨bytes.toArray⟩

/-- A text is read back from its UTF-8 form. -/
theorem text?_ofText (text : String) : text? (ofText text) = some text := by
  simp [text?, ofText, String.fromUTF8?, text.isValidUTF8, String.fromUTF8]

/-- The bytes that a text was read from are its UTF-8 form. -/
theorem ofText_of_text? {bytes : Bytes} {text : String} (h : text? bytes = some text) :
    ofText text = bytes := by
  simp only [text?, String.fromUTF8?] at h
  split at h
  · cases h
    simp [ofText, String.fromUTF8]
  · cases h

/-- Different texts have different UTF-8 forms. -/
theorem ofText_injective {first second : String} (h : ofText first = ofText second) :
    first = second := by
  have := congrArg text? h
  simpa [text?_ofText] using this

/-- The number of bytes of the UTF-8 form. -/
theorem length_ofText (text : String) : (ofText text).length = text.utf8ByteSize := rfl

/-- The lowest `width` bytes of a number, the most significant first. -/
def bigEndian : Nat → Nat → Bytes
  | 0, _ => []
  | width + 1, value => bigEndian width (value / 256) ++ [UInt8.ofNat value]

/-- The number that bytes stand for, the most significant first. -/
def toNat (bytes : Bytes) : Nat := bytes.foldl (fun value byte => value * 256 + byte.toNat) 0

/-- Another byte at the end counts the others 256 times. -/
theorem toNat_concat (bytes : Bytes) (byte : UInt8) :
    toNat (bytes ++ [byte]) = toNat bytes * 256 + byte.toNat := by
  simp [toNat]

/-- A number is written in as many bytes as asked for. -/
theorem length_bigEndian (width value : Nat) : (bigEndian width value).length = width := by
  induction width generalizing value with
  | zero => rfl
  | succ width ih => simp [bigEndian, ih]

/-- A number that fits is read back from its bytes. -/
theorem toNat_bigEndian {width value : Nat} (h : value < Nat.pow 256 width) :
    toNat (bigEndian width value) = value := by
  induction width generalizing value with
  | zero => simp_all [bigEndian, toNat]
  | succ width ih =>
    have hd : value / 256 < Nat.pow 256 width := by
      rw [show Nat.pow 256 (width + 1) = Nat.pow 256 width * 256 from rfl] at h
      omega
    rw [bigEndian, toNat_concat, ih hd, UInt8.toNat_ofNat']
    omega

/-- The digits of bytes. -/
def hexText (bytes : Bytes) : String :=
  String.ofList (bytes.flatMap fun byte =>
    [Text.hexDigit (Text.lowDigit (byte.toNat / 16)), Text.hexDigit (Text.lowDigit byte.toNat)])

/-- The bytes of pairs of digits. -/
def ofHexDigits? : List Char → Option Bytes
  | [] => some []
  | high :: low :: rest =>
    match Text.hexValue? high, Text.hexValue? low, ofHexDigits? rest with
    | some high, some low, some bytes => some (UInt8.ofNat (high.val * 16 + low.val) :: bytes)
    | _, _, _ => none
  | _ => none

/-- The bytes that a text of digits stands for. -/
def ofHexText? (text : String) : Option Bytes := ofHexDigits? text.toList

end Bytes

end PresenceTracker
