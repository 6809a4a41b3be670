import PresenceTracker.Json.Basic
import PresenceTracker.Text

/-!
# Writing JSON text

The compact form: no white space, and in strings nothing escaped but the quote, the
backslash and the control characters, those with a letter of their own by that letter.
-/

namespace PresenceTracker.Json

/-- The ASCII byte of a hexadecimal digit. -/
def hexDigitByte (value : Nat) : UInt8 := UInt8.ofNat (Text.hexDigit (Text.lowDigit value)).toNat

/-- A byte of a text inside a string literal. -/
def escape (byte : UInt8) : Bytes :=
  if byte = 34 then [92, 34]
  else if byte = 92 then [92, 92]
  else if byte = 8 then [92, 98]
  else if byte = 12 then [92, 102]
  else if byte = 10 then [92, 110]
  else if byte = 13 then [92, 114]
  else if byte = 9 then [92, 116]
  else if byte < 32 then
    [92, 117, 48, 48, hexDigitByte (byte.toNat / 16), hexDigitByte (byte.toNat % 16)]
  else [byte]

/-- A text as a string literal. -/
def writeText (text : String) : Bytes := 34 :: (Bytes.ofText text).flatMap escape ++ [34]

/-- An integer. -/
def writeInt (value : Int) : Bytes :=
  let digits := (Decimal.digits value.natAbs).map Decimal.byte
  if value < 0 then 45 :: digits else digits

/-- A truth value. -/
def writeBool (value : Bool) : Bytes := Bytes.ofText (if value then "true" else "false")

/-- The literal `null`. -/
def writeNull : Bytes := Bytes.ofText "null"

/-- A value that may be absent. -/
def writeOption {α : Type} (write : α → Bytes) : Option α → Bytes
  | none => writeNull
  | some value => write value

/-- One member of an object. -/
def writeMember (key : String) (value : Bytes) : Bytes := writeText key ++ 58 :: value

/-- Written members or items with commas between them. -/
def writeList : List Bytes → Bytes
  | [] => []
  | [last] => last
  | first :: rest => first ++ 44 :: writeList rest

/-- An object of written members. -/
def writeObject (members : List (String × Bytes)) : Bytes :=
  123 :: writeList (members.map fun (key, value) => writeMember key value) ++ [125]

/-- An array of written items. -/
def writeArray (items : List Bytes) : Bytes := 91 :: writeList items ++ [93]

/-- Written JSON as a text. What this module writes is always UTF-8. -/
def text (written : Bytes) : String := (Bytes.text? written).getD ""

end PresenceTracker.Json
