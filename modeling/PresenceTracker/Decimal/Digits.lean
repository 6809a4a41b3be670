import PresenceTracker.Bytes

/-!
# Decimal digits

Natural numbers as lists of decimal digits, the most significant first, and digits as
ASCII bytes. The digits of a number have no leading zero and read back as the number.
-/

namespace PresenceTracker.Decimal

/-- Decimal digits, the most significant first. -/
abbrev Digits := List (Fin 10)

/-- The number that digits stand for. -/
def toNat (digits : Digits) : Nat := digits.foldl (fun value digit => value * 10 + digit.val) 0

/-- The last digit of a number. -/
def lastDigit (value : Nat) : Fin 10 := Fin.ofNat 10 value

/-- Whether digits have a zero in front of others. -/
def hasLeadingZero (digits : Digits) : Bool :=
  digits.length ≠ 1 && digits.head?.any fun digit => digit.val = 0

/-- The digits of a number, with a bound on how many are produced. -/
def digitsWithin : Nat → Nat → Digits
  | 0, _ => []
  | bound + 1, value =>
    if value < 10 then [lastDigit value]
    else digitsWithin bound (value / 10) ++ [lastDigit value]

/-- The digits of a number, without a leading zero. -/
def digits (value : Nat) : Digits := digitsWithin (value + 1) value

/-- Another digit at the end counts the others ten times. -/
theorem toNat_concat (front : Digits) (digit : Fin 10) :
    toNat (front ++ [digit]) = toNat front * 10 + digit.val := by
  simp [toNat]

/-- A number below the bound is read back from its digits. -/
theorem toNat_digitsWithin {bound value : Nat} (h : value < bound) :
    toNat (digitsWithin bound value) = value := by
  induction bound generalizing value with
  | zero => omega
  | succ bound ih =>
    rw [digitsWithin]
    split
    · next hs => simp [toNat, lastDigit, Nat.mod_eq_of_lt hs]
    · rw [toNat_concat, ih (by omega)]
      simp only [lastDigit, Fin.val_ofNat]
      omega

/-- A number is read back from its digits. -/
theorem toNat_digits (value : Nat) : toNat (digits value) = value :=
  toNat_digitsWithin (Nat.lt_succ_self value)

/-- The ASCII byte of a digit. -/
def byte (digit : Fin 10) : UInt8 := UInt8.ofNat (48 + digit.val)

/-- Whether a byte is the ASCII form of a digit. -/
def isDigit (byte : UInt8) : Bool := 48 ≤ byte && byte ≤ 57

/-- The digit that a byte is the ASCII form of; zero for any other byte. -/
def ofByte (byte : UInt8) : Fin 10 := lastDigit (byte.toNat - 48)

/-- The byte of a digit is taken for a digit. -/
theorem isDigit_byte (digit : Fin 10) : isDigit (byte digit) = true := by
  revert digit
  decide

/-- A digit is read back from its byte. -/
theorem ofByte_byte (digit : Fin 10) : ofByte (byte digit) = digit := by
  revert digit
  decide

/-- The digits in front of a byte string. -/
def leading (bytes : Bytes) : Digits := (bytes.takeWhile isDigit).map ofByte

/-- What follows the digits in front of a byte string. -/
def afterDigits (bytes : Bytes) : Bytes := bytes.dropWhile isDigit

/-- Digits as a text. -/
def text (digits : Digits) : String := String.ofList (digits.map fun d => Char.ofNat (48 + d.val))

/-- A number as a text. -/
def natText (value : Nat) : String := text (digits value)

/-- An integer as a text, with a minus in front if it is negative. -/
def intText (value : Int) : String :=
  if value < 0 then "-" ++ natText value.natAbs else natText value.natAbs

end PresenceTracker.Decimal
