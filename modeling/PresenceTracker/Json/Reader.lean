import PresenceTracker.Json.Basic
import PresenceTracker.Text

/-!
# Reading JSON text

A strict reader of JSON text given as bytes: white space is space, tab, carriage return
and line feed; numbers have no leading zeros; strings hold no raw control characters;
nothing but white space follows the value.
-/

namespace PresenceTracker.Json

/-- Whether a byte is white space between tokens. -/
def isBlank (byte : UInt8) : Bool := byte == 32 || byte == 9 || byte == 10 || byte == 13

/-- What follows the white space in front. -/
def skipBlanks (input : Bytes) : Bytes := input.dropWhile isBlank

/-- A part of a string literal. -/
inductive Piece where
  /-- A byte that stands for itself or is escaped by a letter. -/
  | raw (byte : UInt8)
  /-- A 16-bit unit, escaped by its four hexadecimal digits. -/
  | unit (value : Nat)
  deriving DecidableEq, Repr

/-- The byte that a letter behind a backslash stands for. -/
def escaped? (letter : UInt8) : Option UInt8 :=
  if letter = 34 || letter = 92 || letter = 47 then some letter
  else if letter = 98 then some 8
  else if letter = 102 then some 12
  else if letter = 110 then some 10
  else if letter = 114 then some 13
  else if letter = 116 then some 9
  else none

/-- The value of an ASCII byte as a hexadecimal digit. -/
def hexByte? (byte : UInt8) : Option (Fin 16) := Text.hexValue? (Char.ofNat byte.toNat)

/-- The 16-bit unit of four hexadecimal digits. -/
def unit? (a b c d : UInt8) : Option Nat :=
  match hexByte? a, hexByte? b, hexByte? c, hexByte? d with
  | some a, some b, some c, some d => some (((a.val * 16 + b.val) * 16 + c.val) * 16 + d.val)
  | _, _, _, _ => none

/-- The pieces of a string literal up to its closing quote, which is taken too; the
pieces read before are given in reverse. -/
def readPieces (before : List Piece) : Bytes → Option (List Piece × Bytes)
  | [] => none
  | 34 :: rest => some (before.reverse, rest)
  | 92 :: 117 :: a :: b :: c :: d :: rest =>
    match unit? a b c d with
    | some value => readPieces (.unit value :: before) rest
    | none => none
  | 92 :: letter :: rest =>
    match escaped? letter with
    | some byte => readPieces (.raw byte :: before) rest
    | none => none
  | byte :: rest =>
    if byte < 32 || byte = 92 then none else readPieces (.raw byte :: before) rest

/-- Whether a 16-bit unit is the first half of a surrogate pair. -/
def isHighSurrogate (value : Nat) : Bool := 0xD800 ≤ value && value < 0xDC00

/-- Whether a 16-bit unit is the second half of a surrogate pair. -/
def isLowSurrogate (value : Nat) : Bool := 0xDC00 ≤ value && value < 0xE000

/-- The code point of a surrogate pair. -/
def joinSurrogates (high low : Nat) : Nat := 0x10000 + (high - 0xD800) * 1024 + (low - 0xDC00)

/-- The UTF-8 form of a code point. -/
def scalarBytes (value : Nat) : Bytes := Bytes.ofText (String.singleton (Char.ofNat value))

/-- The bytes that pieces stand for behind the given bytes in reverse; nothing if a half
of a surrogate pair stands alone. -/
def pieceBytes? (before : Bytes) : List Piece → Option Bytes
  | [] => some before.reverse
  | .raw byte :: rest => pieceBytes? (byte :: before) rest
  | .unit high :: .unit low :: rest =>
    if isHighSurrogate high then
      if isLowSurrogate low then
        pieceBytes? ((scalarBytes (joinSurrogates high low)).reverse ++ before) rest
      else none
    else if isLowSurrogate high then none
    else pieceBytes? ((scalarBytes high).reverse ++ before) (.unit low :: rest)
  | .unit value :: rest =>
    if isHighSurrogate value || isLowSurrogate value then none
    else pieceBytes? ((scalarBytes value).reverse ++ before) rest

/-- The text that the pieces of a string literal denote, if they denote one. -/
def piecesText? (pieces : List Piece) : Option String := (pieceBytes? [] pieces).bind Bytes.text?

/-- A string literal behind its opening quote. -/
def readText (input : Bytes) : Option (Option String × Bytes) :=
  (readPieces [] input).map fun (pieces, rest) => (piecesText? pieces, rest)

/-- The fraction of a number, if there is one. -/
def readFraction : Bytes → Option (Option Decimal.Digits × Bytes)
  | 46 :: rest =>
    let digits := Decimal.leading rest
    if digits.isEmpty then none else some (some digits, Decimal.afterDigits rest)
  | rest => some (none, rest)

/-- The sign of an exponent. -/
def readSign : Bytes → Bool × Bytes
  | 43 :: rest => (false, rest)
  | 45 :: rest => (true, rest)
  | rest => (false, rest)

/-- The exponent of a number, if there is one. -/
def readExponent (input : Bytes) : Option (Option (Bool × Decimal.Digits) × Bytes) :=
  match input with
  | mark :: rest =>
    if mark = 101 || mark = 69 then
      let (negative, rest) := readSign rest
      let digits := Decimal.leading rest
      if digits.isEmpty then none
      else some (some (negative, digits), Decimal.afterDigits rest)
    else some (none, input)
  | [] => some (none, [])

/-- A number. -/
def readNumber (input : Bytes) : Option (NumberLiteral × Bytes) := do
  let (negative, input) := match input with
    | 45 :: rest => (true, rest)
    | _ => (false, input)
  let whole := Decimal.leading input
  if whole.isEmpty || Decimal.hasLeadingZero whole then none
  else
    let (fraction, rest) ← readFraction (Decimal.afterDigits input)
    let (exponent, rest) ← readExponent rest
    return (⟨negative, whole, fraction, exponent⟩, rest)

/-- A literal or a number. -/
def readScalar : Bytes → Option (Json × Bytes)
  | 110 :: 117 :: 108 :: 108 :: rest => some (.null, rest)
  | 116 :: 114 :: 117 :: 101 :: rest => some (.bool true, rest)
  | 102 :: 97 :: 108 :: 115 :: 101 :: rest => some (.bool false, rest)
  | input => (readNumber input).map fun (literal, rest) => (.number literal, rest)

mutual

/-- A value behind optional white space, with a bound on the steps taken. -/
def readValue : Nat → Bytes → Option (Json × Bytes)
  | 0, _ => none
  | bound + 1, input =>
    match skipBlanks input with
    | 123 :: rest =>
      match skipBlanks rest with
      | 125 :: rest => some (.object [], rest)
      | rest =>
        match readMembers bound rest with
        | some (members, rest) => some (.object members, rest)
        | none => none
    | 91 :: rest =>
      match skipBlanks rest with
      | 93 :: rest => some (.array [], rest)
      | rest =>
        match readItems bound rest with
        | some (items, rest) => some (.array items, rest)
        | none => none
    | 34 :: rest => (readText rest).map fun (text, rest) => (.string text, rest)
    | rest => readScalar rest

/-- The items of an array up to its closing bracket, which is taken too. -/
def readItems : Nat → Bytes → Option (List Json × Bytes)
  | 0, _ => none
  | bound + 1, input =>
    match readValue bound input with
    | none => none
    | some (item, rest) =>
      match skipBlanks rest with
      | 44 :: rest =>
        match readItems bound rest with
        | some (items, rest) => some (item :: items, rest)
        | none => none
      | 93 :: rest => some ([item], rest)
      | _ => none

/-- The members of an object up to its closing brace, which is taken too. -/
def readMembers : Nat → Bytes → Option (List (Option String × Json) × Bytes)
  | 0, _ => none
  | bound + 1, input =>
    match skipBlanks input with
    | 34 :: rest =>
      match readText rest with
      | none => none
      | some (key, rest) =>
        match skipBlanks rest with
        | 58 :: rest =>
          match readValue bound rest with
          | none => none
          | some (value, rest) =>
            match skipBlanks rest with
            | 44 :: rest =>
              match readMembers bound rest with
              | some (members, rest) => some ((key, value) :: members, rest)
              | none => none
            | 125 :: rest => some ([(key, value)], rest)
            | _ => none
        | _ => none
    | _ => none

end

/-- The tree of a JSON text. Every two steps of the reader take at least one byte. -/
def parse (input : Bytes) : Except Fault Json :=
  match readValue (2 * input.length + 2) input with
  | some (json, rest) => if (skipBlanks rest).isEmpty then .ok json else .error .malformed
  | none => .error .malformed

end PresenceTracker.Json
