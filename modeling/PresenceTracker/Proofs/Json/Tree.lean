import PresenceTracker.Proofs.Json.Text

/-!
# Reading back written JSON

Written bytes denote a tree if a reader that is given enough steps takes exactly them from
the front of any input and gives the tree. What may follow is anything that does not go on
with a number. Scalars denote themselves, and an object denotes the trees of its members.
-/

namespace PresenceTracker.Json

/-- Whether a number that ends in front of these bytes does not go on with them. -/
def Delimits (rest : Bytes) : Prop :=
  ∀ byte ∈ rest.head?, Decimal.isDigit byte = false ∧ byte ≠ 46 ∧ byte ≠ 101 ∧ byte ≠ 69

/-- Nothing follows. -/
theorem delimits_nil : Delimits [] := fun _ h => nomatch h

/-- A mark between values follows. -/
theorem delimits_cons {byte : UInt8} (h : byte = 44 ∨ byte = 125 ∨ byte = 93) (rest : Bytes) :
    Delimits (byte :: rest) := by
  intro other ho
  cases ho
  rcases h with rfl | rfl | rfl <;> decide

/-- Written bytes from which a reader takes a tree, in at most two steps for each byte. -/
def Denotes (written : Bytes) (json : Json) : Prop :=
  ∀ (bound : Nat) (rest : Bytes), 2 * written.length ≤ bound → Delimits rest →
    readValue bound (written ++ rest) = some (json, rest)

/-- Nothing is skipped in front of a byte that is not blank. -/
theorem skipBlanks_cons {byte : UInt8} (h : isBlank byte = false) (rest : Bytes) :
    skipBlanks (byte :: rest) = byte :: rest := by
  rw [skipBlanks, List.dropWhile_cons_of_neg (by simp [h])]

/-- A whole input that denotes a tree is parsed as it. -/
theorem parse_of_denotes {written : Bytes} {json : Json} (h : Denotes written json) :
    parse written = .ok json := by
  have hread := h (2 * written.length + 2) [] (by omega) delimits_nil
  rw [List.append_nil] at hread
  simp [parse, hread, skipBlanks]

/-- A written text denotes itself. -/
theorem denotes_writeText (text : String) : Denotes (writeText text) (.string (some text)) := by
  intro bound rest hbound _
  obtain ⟨steps, rfl⟩ : ∃ steps, bound = steps + 1 :=
    ⟨bound - 1, by simp only [writeText, List.length_append, List.length_cons] at hbound; omega⟩
  have hread := readText_writeText text rest
  simp only [writeText, List.cons_append, List.append_assoc, List.nil_append, readValue,
    skipBlanks_cons (show isBlank 34 = false by decide), hread, Option.map_some]

/-- The literal `null` denotes itself. -/
theorem denotes_writeNull : Denotes writeNull .null := by
  intro bound rest hbound _
  obtain ⟨steps, rfl⟩ : ∃ steps, bound = steps + 1 := ⟨bound - 1, by
    have : writeNull.length = 4 := by decide
    omega⟩
  have hbytes : writeNull ++ rest = 110 :: 117 :: 108 :: 108 :: rest := rfl
  rw [hbytes, readValue, skipBlanks_cons (show isBlank 110 = false by decide)]
  rfl

/-- A truth value denotes itself. -/
theorem denotes_writeBool (value : Bool) : Denotes (writeBool value) (.bool value) := by
  intro bound rest hbound _
  obtain ⟨steps, rfl⟩ : ∃ steps, bound = steps + 1 := ⟨bound - 1, by
    have : 0 < (writeBool value).length := by cases value <;> decide
    omega⟩
  cases value with
  | false =>
    have hbytes : writeBool false ++ rest = 102 :: 97 :: 108 :: 115 :: 101 :: rest := rfl
    rw [hbytes, readValue, skipBlanks_cons (show isBlank 102 = false by decide)]
    rfl
  | true =>
    have hbytes : writeBool true ++ rest = 116 :: 114 :: 117 :: 101 :: rest := rfl
    rw [hbytes, readValue, skipBlanks_cons (show isBlank 116 = false by decide)]
    rfl

end PresenceTracker.Json
