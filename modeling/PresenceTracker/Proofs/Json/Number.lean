import PresenceTracker.Proofs.Json.Tree

/-!
# Reading back written integers

The digits of a number are at least one and have no leading zero, and the bytes of digits
read back as the digits if no further digit follows. So a written integer denotes the
literal of that integer.
-/

namespace PresenceTracker.Decimal

/-- The first digit of a positive number is not zero. -/
theorem head?_digitsWithin {bound value : Nat} (hpos : 0 < value) (hlt : value < bound) :
    ∃ digit, (digitsWithin bound value).head? = some digit ∧ digit.val ≠ 0 := by
  induction bound generalizing value with
  | zero => omega
  | succ bound ih =>
    rw [digitsWithin]
    split
    case isTrue hsmall =>
      refine ⟨lastDigit value, rfl, ?_⟩
      simp only [lastDigit, Fin.val_ofNat]
      omega
    case isFalse hlarge =>
      obtain ⟨digit, hhead, hdigit⟩ := @ih (value / 10) (by omega) (by omega)
      exact ⟨digit, by rw [List.head?_append, hhead]; rfl, hdigit⟩

/-- A number has at least one digit. -/
theorem digits_ne_nil (value : Nat) : digits value ≠ [] := by
  rw [digits, digitsWithin]
  split <;> simp

theorem hasLeadingZero_digits (value : Nat) : hasLeadingZero (digits value) = false := by
  by_cases hsmall : value < 10
  · have hone : digits value = [lastDigit value] := by rw [digits, digitsWithin, if_pos hsmall]
    simp [hone, hasLeadingZero]
  · obtain ⟨digit, hhead, hdigit⟩ := @head?_digitsWithin (value + 1) value (by omega) (by omega)
    have hdigits : (digits value).head? = some digit := hhead
    have hne : digit ≠ 0 := fun heq => hdigit (congrArg Fin.val heq)
    simp [hasLeadingZero, hdigits, hne]

/-- No digit follows. -/
def EndsDigits (rest : Bytes) : Prop := ∀ byte ∈ rest.head?, isDigit byte = false

/-- Written digits are the digits in front. -/
theorem takeWhile_map_byte (front : Digits) {rest : Bytes} (h : EndsDigits rest) :
    (front.map byte ++ rest).takeWhile isDigit = front.map byte := by
  rw [List.takeWhile_append_of_pos (by simp [isDigit_byte])]
  cases rest with
  | nil => simp
  | cons next rest => rw [List.takeWhile_cons_of_neg (by simp [h next rfl]), List.append_nil]

theorem leading_map_byte (front : Digits) {rest : Bytes} (h : EndsDigits rest) :
    leading (front.map byte ++ rest) = front := by
  rw [leading, takeWhile_map_byte front h, List.map_map]
  have hback : ofByte ∘ byte = id := funext ofByte_byte
  rw [hback, List.map_id]

theorem afterDigits_map_byte (front : Digits) {rest : Bytes} (h : EndsDigits rest) :
    afterDigits (front.map byte ++ rest) = rest := by
  rw [afterDigits, List.dropWhile_append_of_pos (by simp [isDigit_byte])]
  cases rest with
  | nil => rfl
  | cons next rest => rw [List.dropWhile_cons_of_neg (by simp [h next rfl])]

end PresenceTracker.Decimal

namespace PresenceTracker.Json

open Decimal

theorem Delimits.endsDigits {rest : Bytes} (h : Delimits rest) : EndsDigits rest :=
  fun byte hb => (h byte hb).1

/-- Behind a whole number without a point nothing is a fraction. -/
theorem readFraction_of_delimits {rest : Bytes} (h : Delimits rest) :
    readFraction rest = some (none, rest) := by
  unfold readFraction
  split
  case h_1 => exact absurd rfl (h 46 rfl).2.1
  case h_2 => rfl

/-- Behind a number without an exponent nothing is an exponent. -/
theorem readExponent_of_delimits {rest : Bytes} (h : Delimits rest) :
    readExponent rest = some (none, rest) := by
  cases rest with
  | nil => rfl
  | cons next rest =>
    have hnext := h next rfl
    simp [readExponent, hnext.2.2.1, hnext.2.2.2]

theorem byte_ne_minus (digit : Fin 10) : byte digit ≠ 45 := by
  revert digit
  decide

/-- The digits of an integer are read as the whole part of its literal. -/
theorem readNumber_writeInt (value : Int) {rest : Bytes} (h : Delimits rest) :
    readNumber (writeInt value ++ rest) = some (.ofInt value, rest) := by
  have hleading := leading_map_byte (digits value.natAbs) h.endsDigits
  have hafter := afterDigits_map_byte (digits value.natAbs) h.endsDigits
  have hnonempty : (digits value.natAbs).isEmpty = false := by
    simp [digits_ne_nil]
  have hzero := hasLeadingZero_digits value.natAbs
  by_cases hneg : value < 0
  · have hbytes : writeInt value ++ rest = 45 :: ((digits value.natAbs).map byte ++ rest) := by
      simp [writeInt, hneg]
    simp [readNumber, hbytes, hleading, hafter, hnonempty, hzero, readFraction_of_delimits h,
      readExponent_of_delimits h, NumberLiteral.ofInt, hneg]
  · have hbytes : writeInt value ++ rest = (digits value.natAbs).map byte ++ rest := by
      simp [writeInt, hneg]
    have hplain : ∀ tail, (digits value.natAbs).map byte ++ rest ≠ 45 :: tail := by
      intro tail heq
      obtain ⟨first, others, hdigits⟩ := List.exists_cons_of_ne_nil (digits_ne_nil value.natAbs)
      rw [hdigits, List.map_cons, List.cons_append] at heq
      exact byte_ne_minus first (List.cons.inj heq).1
    rw [hbytes, readNumber]
    · simp [hleading, hafter, hnonempty, hzero, readFraction_of_delimits h,
        readExponent_of_delimits h, NumberLiteral.ofInt, hneg]
    · exact hplain

/-- A byte that begins a number begins no literal and no other value. -/
theorem readValue_number {first : UInt8} (h : first = 45 ∨ isDigit first = true)
    (steps : Nat) (rest : Bytes) :
    readValue (steps + 1) (first :: rest) =
      (readNumber (first :: rest)).map fun (literal, rest) => (.number literal, rest) := by
  have hall : ∀ code : Fin 256, UInt8.ofNat code.val = 45 ∨ isDigit (UInt8.ofNat code.val) = true →
      isBlank (UInt8.ofNat code.val) = false ∧ UInt8.ofNat code.val ≠ 123 ∧
        UInt8.ofNat code.val ≠ 91 ∧ UInt8.ofNat code.val ≠ 34 ∧ UInt8.ofNat code.val ≠ 110 ∧
          UInt8.ofNat code.val ≠ 116 ∧ UInt8.ofNat code.val ≠ 102 := by
    decide +kernel
  have hfirst := hall ⟨first.toNat, first.toNat_lt⟩
  simp only [UInt8.ofNat_toNat] at hfirst
  obtain ⟨hblank, hobject, harray, hquote, hnull, htrue, hfalse⟩ := hfirst h
  rw [readValue, skipBlanks_cons hblank]
  split
  case h_1 heq => exact absurd (List.cons.inj heq).1 hobject
  case h_2 heq => exact absurd (List.cons.inj heq).1 harray
  case h_3 heq => exact absurd (List.cons.inj heq).1 hquote
  case h_4 =>
    unfold readScalar
    split
    case h_1 heq => exact absurd (List.cons.inj heq).1 hnull
    case h_2 heq => exact absurd (List.cons.inj heq).1 htrue
    case h_3 heq => exact absurd (List.cons.inj heq).1 hfalse
    case h_4 => rfl

/-- What begins like a number and is read as a literal, whatever follows, denotes it. -/
theorem denotes_number {first : UInt8} {others : Bytes} {literal : NumberLiteral}
    (hfirst : first = 45 ∨ isDigit first = true)
    (hread : ∀ rest, Delimits rest → readNumber (first :: others ++ rest) = some (literal, rest)) :
    Denotes (first :: others) (.number literal) := by
  intro bound rest hbound hrest
  have hread := hread rest hrest
  obtain ⟨steps, rfl⟩ : ∃ steps, bound = steps + 1 := ⟨bound - 1, by
    rw [List.length_cons] at hbound
    omega⟩
  rw [List.cons_append] at hread ⊢
  rw [readValue_number hfirst, hread]
  rfl

/-- A written integer begins with a minus or a digit. -/
theorem writeInt_begins (value : Int) :
    ∃ first others, writeInt value = first :: others ∧ (first = 45 ∨ isDigit first = true) := by
  obtain ⟨first, others, hdigits⟩ := List.exists_cons_of_ne_nil (digits_ne_nil value.natAbs)
  by_cases hneg : value < 0
  · exact ⟨45, (digits value.natAbs).map byte, by simp [writeInt, hneg], Or.inl rfl⟩
  · exact ⟨byte first, others.map byte, by simp [writeInt, hneg, hdigits],
      Or.inr (isDigit_byte first)⟩

/-- A written integer denotes its literal. -/
theorem denotes_writeInt (value : Int) : Denotes (writeInt value) (.number (.ofInt value)) := by
  have hread := fun rest hrest => @readNumber_writeInt value rest hrest
  obtain ⟨first, others, hbytes, hfirst⟩ := writeInt_begins value
  rw [hbytes] at hread ⊢
  exact denotes_number hfirst hread

end PresenceTracker.Json
