import PresenceTracker.Json.Reader
import PresenceTracker.Json.Writer

/-!
# Reading back string literals

A written string literal holds one piece for each byte of the text: the byte itself, or
for a control character without a letter of its own a 16-bit unit below 32. The pieces
stand for the bytes again, so the literal denotes the text it was written for.
-/

namespace PresenceTracker.Json

/-- The piece as which a reader finds a written byte. -/
def pieceOf (byte : UInt8) : Piece :=
  if byte < 32 && !([8, 9, 10, 12, 13] : Bytes).contains byte then .unit byte.toNat else .raw byte

/-- The four digits of an escaped control character stand for its byte. -/
theorem unit?_escaped {byte : UInt8} (h : byte < 32) :
    unit? 48 48 (hexDigitByte (byte.toNat / 16)) (hexDigitByte (byte.toNat % 16)) =
      some byte.toNat := by
  have hall : ∀ value : Fin 32, unit? 48 48 (hexDigitByte (value.val / 16))
      (hexDigitByte (value.val % 16)) = some value.val := by decide +kernel
  exact hall ⟨byte.toNat, UInt8.lt_iff_toNat_lt.mp h⟩

/-- A reader takes one written byte as one piece. -/
theorem readPieces_escape (before : List Piece) (byte : UInt8) (rest : Bytes) :
    readPieces before (escape byte ++ rest) = readPieces (pieceOf byte :: before) rest := by
  by_cases hspecial : byte = 34 ∨ byte = 92 ∨ byte = 8 ∨ byte = 12 ∨ byte = 10 ∨ byte = 13 ∨
      byte = 9
  · rcases hspecial with rfl | rfl | rfl | rfl | rfl | rfl | rfl <;> rfl
  · simp only [not_or] at hspecial
    obtain ⟨hquote, hslash, hback, hfeed, hline, hreturn, htab⟩ := hspecial
    by_cases hcontrol : byte < 32
    · have hpiece : pieceOf byte = .unit byte.toNat := by
        simp [pieceOf, hcontrol, hback, hfeed, hline, hreturn, htab]
      simp only [escape, hquote, hslash, hback, hfeed, hline, hreturn, htab, hcontrol, if_false,
        if_true, List.cons_append, List.nil_append, readPieces, unit?_escaped hcontrol, hpiece]
    · have hpiece : pieceOf byte = .raw byte := by simp [pieceOf, hcontrol]
      simp [escape, hquote, hslash, hback, hfeed, hline, hreturn, htab, hcontrol, readPieces,
        hpiece]

/-- A reader takes a written text as one piece for each byte, and stops behind the quote. -/
theorem readPieces_flatMap_escape (before : List Piece) (bytes rest : Bytes) :
    readPieces before (bytes.flatMap escape ++ 34 :: rest) =
      some (before.reverse ++ bytes.map pieceOf, rest) := by
  induction bytes generalizing before with
  | nil => simp [readPieces]
  | cons byte bytes ih =>
    rw [List.flatMap_cons, List.append_assoc, readPieces_escape, ih]
    simp

/-- A unit below the surrogates and below 128 stands for the byte of that value. -/
theorem pieceBytes?_unit {byte : UInt8} (h : byte < 32) (before : Bytes) (rest : List Piece) :
    pieceBytes? before (.unit byte.toNat :: rest) = pieceBytes? (byte :: before) rest := by
  have hlt : byte.toNat < 32 := UInt8.lt_iff_toNat_lt.mp h
  have hhigh : isHighSurrogate byte.toNat = false := by
    simp only [isHighSurrogate, Bool.and_eq_false_iff, decide_eq_false_iff_not]
    omega
  have hlow : isLowSurrogate byte.toNat = false := by
    simp only [isLowSurrogate, Bool.and_eq_false_iff, decide_eq_false_iff_not]
    omega
  have hbytes : scalarBytes byte.toNat = [byte] := by
    have hall : ∀ value : Fin 32, scalarBytes value.val = [UInt8.ofNat value.val] := by
      decide +kernel
    have := hall ⟨byte.toNat, hlt⟩
    rwa [UInt8.ofNat_toNat] at this
  cases rest with
  | nil => simp [pieceBytes?, hhigh, hlow, hbytes]
  | cons next rest =>
    cases next <;> simp [pieceBytes?, hhigh, hlow, hbytes]

/-- The pieces of written bytes stand for the bytes. -/
theorem pieceBytes?_map_pieceOf (before bytes : Bytes) :
    pieceBytes? before (bytes.map pieceOf) = some (before.reverse ++ bytes) := by
  induction bytes generalizing before with
  | nil => simp [pieceBytes?]
  | cons byte bytes ih =>
    have hstep : pieceBytes? before (pieceOf byte :: bytes.map pieceOf) =
        pieceBytes? (byte :: before) (bytes.map pieceOf) := by
      unfold pieceOf
      split
      case isTrue h => exact pieceBytes?_unit (by simpa using (Bool.and_eq_true_iff.mp h).1) _ _
      case isFalse => rfl
    rw [List.map_cons, hstep, ih]
    simp

/-- The pieces of a written text denote it. -/
theorem piecesText?_map_pieceOf (text : String) :
    piecesText? ((Bytes.ofText text).map pieceOf) = some text := by
  rw [piecesText?, pieceBytes?_map_pieceOf]
  exact Bytes.text?_ofText text

/-- A string literal reads back as the text it was written for. -/
theorem readText_writeText (text : String) (rest : Bytes) :
    readText ((Bytes.ofText text).flatMap escape ++ 34 :: rest) = some (some text, rest) := by
  rw [readText, readPieces_flatMap_escape, Option.map_some, List.reverse_nil, List.nil_append]
  exact congrArg (fun denoted => some (denoted, rest)) (piecesText?_map_pieceOf text)

end PresenceTracker.Json
