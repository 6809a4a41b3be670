import PresenceTracker.Compact
import PresenceTracker.Wire.Message

/-!
# Cache frames

A cached value is kept as a frame: a tag byte and a body. Tag 1 marks the compact
encoding of the value's type, if it has one, and tag 0 JSON text. A value is written in
the compact encoding whenever it has one.
-/

namespace PresenceTracker

/-- How values of a type are kept in frames. -/
structure FrameCodec (α : Type) where
  /-- The compact encoding of a value that has one. -/
  encodeCompact : α → Option Bytes
  /-- The reader of the compact encoding, if the type has one. -/
  decodeCompact : Option (Bytes → Except Failure α)
  /-- The JSON text of a value. -/
  writeJson : α → Bytes
  /-- The reader of the JSON text. -/
  readJson : Bytes → Except Failure α

namespace FrameCodec

/-- The tag of the compact encoding. -/
def compactTag : UInt8 := 1

/-- The tag of JSON text. -/
def jsonTag : UInt8 := 0

/-- A tag that stands for nothing. -/
def unknownTag (tag : UInt8) : Failure :=
  .plain .serialization ("Unknown cache frame tag 0x" ++ String.ofList
    [Text.hexDigit (Text.lowDigit (tag.toNat / 16)), Text.hexDigit (Text.lowDigit tag.toNat)])

/-- The frame of a value. -/
def encode {α : Type} (codec : FrameCodec α) (value : α) : Bytes :=
  match codec.encodeCompact value with
  | some body => compactTag :: body
  | none => jsonTag :: codec.writeJson value

/-- The value of a frame. -/
def decode {α : Type} (codec : FrameCodec α) : Bytes → Except Failure α
  | [] => .error (.plain .serialization "Empty cache frame")
  | tag :: body =>
    if tag = compactTag then
      match codec.decodeCompact with
      | some read => read body
      | none => .error (.plain .serialization
          "Cache frame uses a compact encoding this type does not provide")
    else if tag = jsonTag then codec.readJson body
    else .error (unknownTag tag)

/-- The value of a frame that a look-up found, if it found one. -/
def decodeFound {α : Type} (codec : FrameCodec α) :
    Except Failure (Option Bytes) → Except Failure (Option α)
  | .ok (some frame) => (codec.decode frame).map some
  | .ok none => .ok none
  | .error failure => .error failure

/-- Frames of records. -/
def record : FrameCodec Record where
  encodeCompact := Compact.encode?
  decodeCompact := some fun body => (Compact.decode body).mapError Compact.Fault.failure
  writeJson := Wire.writeRecord
  readJson := Wire.parse (Wire.readRecord false)

/-- Frames of texts. -/
def text : FrameCodec String where
  encodeCompact _ := none
  decodeCompact := none
  writeJson := Json.writeText
  readJson := Wire.parse Json.asText

/-- Frames of generic JSON values. -/
def value : FrameCodec JsonValue where
  encodeCompact _ := none
  decodeCompact := none
  writeJson := JsonValue.write
  readJson body := (JsonValue.parse body).mapError Json.Fault.failure

end FrameCodec

end PresenceTracker
