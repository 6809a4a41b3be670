import PresenceTracker.Json.Writer

/-!
# Written JSON is text

The characters beyond ASCII consist of bytes that no string literal escapes, and an ASCII byte
is ASCII after it has been escaped as well. So whatever is written as JSON is the UTF-8 form of
a text.
-/

namespace PresenceTracker

namespace Bytes

/-- Whether bytes are the UTF-8 form of a text. -/
def IsText (bytes : Bytes) : Prop := ∃ text, ofText text = bytes

variable {first second : Bytes}

theorem isText_ofText (text : String) : IsText (ofText text) := ⟨text, rfl⟩

theorem isText_nil : IsText [] := ⟨"", rfl⟩

theorem ofText_append (one other : String) :
    ofText (one ++ other) = ofText one ++ ofText other := by
  rw [ofText, String.toByteArray_append, ByteArray.data_append, Array.toList_append, ofText, ofText]

/-- The UTF-8 forms of two texts, one behind the other, are that of a text. -/
theorem IsText.append (hfirst : IsText first) (hsecond : IsText second) :
    IsText (first ++ second) := by
  obtain ⟨one, rfl⟩ := hfirst
  obtain ⟨other, rfl⟩ := hsecond
  exact ⟨one ++ other, ofText_append one other⟩

/-- The UTF-8 forms of many texts, one behind the other, are that of a text. -/
theorem isText_flatMap {α : Type} {items : List α} {write : α → Bytes}
    (h : ∀ item ∈ items, IsText (write item)) : IsText (items.flatMap write) := by
  induction items with
  | nil => exact isText_nil
  | cons item rest ih =>
    have hitem : IsText (write item) := h item List.mem_cons_self
    exact hitem.append (ih fun other hother => h other (List.mem_cons_of_mem _ hother))

/-- The bytes of characters are those of one character behind the other. -/
theorem ofText_ofList (chars : List Char) :
    ofText (String.ofList chars) = chars.flatMap String.utf8EncodeChar := by
  rw [ofText, String.toByteArray_ofList, List.utf8Encode]
  simp

theorem isText_utf8EncodeChar (char : Char) : IsText (String.utf8EncodeChar char) :=
  ⟨String.ofList [char], by rw [ofText_ofList, List.flatMap_singleton]⟩

/-- An ASCII byte is the UTF-8 form of its character. -/
theorem isText_ascii {byte : UInt8} (h : byte < 128) : IsText [byte] := by
  have hall : ∀ value : Fin 128,
      String.utf8EncodeChar (Char.ofNat value.val) = [UInt8.ofNat value.val] := by decide +kernel
  have hchar := hall ⟨byte.toNat, UInt8.lt_iff_toNat_lt.mp h⟩
  rw [UInt8.ofNat_toNat] at hchar
  exact hchar ▸ isText_utf8EncodeChar _

/-- ASCII bytes are the UTF-8 form of a text. -/
theorem isText_of_ascii {bytes : Bytes} (h : ∀ byte ∈ bytes, byte < 128) : IsText bytes := by
  have hflat : IsText (bytes.flatMap fun byte => [byte]) :=
    isText_flatMap fun byte hbyte => isText_ascii (h byte hbyte)
  rwa [List.flatMap_singleton'] at hflat

/-- A byte of a character with several of them is not ASCII. -/
theorem le_ofNat {value : Nat} (hlow : 128 ≤ value) (hhigh : value < 256) :
    128 ≤ UInt8.ofNat value := by
  rw [UInt8.le_iff_toNat_le, UInt8.toNat_ofNat', Nat.mod_eq_of_lt hhigh]
  exact hlow

/-- A character is one ASCII byte, or none of its bytes is ASCII. -/
theorem utf8EncodeChar_ascii (char : Char) :
    (∃ byte : UInt8, byte < 128 ∧ String.utf8EncodeChar char = [byte]) ∨
      ∀ byte ∈ String.utf8EncodeChar char, 128 ≤ byte := by
  rw [String.utf8EncodeChar]
  split
  case isTrue hone =>
    refine Or.inl ⟨UInt8.ofNat char.val.toNat, ?_, rfl⟩
    rw [UInt8.lt_iff_toNat_lt, UInt8.toNat_ofNat']
    exact Nat.lt_of_le_of_lt (Nat.mod_le _ _) (Nat.lt_succ_of_le hone)
  case isFalse =>
    refine Or.inr ?_
    split
    · simp only [List.forall_mem_cons]
      exact ⟨le_ofNat (by omega) (by omega), le_ofNat (by omega) (by omega), nofun⟩
    · split
      · simp only [List.forall_mem_cons]
        exact ⟨le_ofNat (by omega) (by omega), le_ofNat (by omega) (by omega),
          le_ofNat (by omega) (by omega), nofun⟩
      · simp only [List.forall_mem_cons]
        exact ⟨le_ofNat (by omega) (by omega), le_ofNat (by omega) (by omega),
          le_ofNat (by omega) (by omega), le_ofNat (by omega) (by omega), nofun⟩

end Bytes

namespace Json

open Bytes

/-- What stands for an ASCII byte in a string literal is ASCII. -/
theorem escape_ascii {byte : UInt8} (h : byte < 128) : ∀ other ∈ escape byte, other < 128 := by
  have hall : ∀ value : Fin 128, ∀ other ∈ escape (UInt8.ofNat value.val), other < 128 := by
    decide +kernel
  have hbyte := hall ⟨byte.toNat, UInt8.lt_iff_toNat_lt.mp h⟩
  rwa [UInt8.ofNat_toNat] at hbyte

/-- A byte that is not ASCII stands for itself. -/
theorem escape_of_le {byte : UInt8} (h : 128 ≤ byte) : escape byte = [byte] := by
  have hne : ∀ other : UInt8, other < 128 → byte ≠ other := by
    rintro other hother rfl
    exact absurd hother (UInt8.not_lt.mpr h)
  have hcontrol : ¬byte < 32 := by
    rw [UInt8.lt_iff_toNat_lt]
    rw [UInt8.le_iff_toNat_le] at h
    exact Nat.not_lt.mpr (Nat.le_trans (by decide) h)
  rw [escape, if_neg (hne 34 (by decide)), if_neg (hne 92 (by decide)), if_neg (hne 8 (by decide)),
    if_neg (hne 12 (by decide)), if_neg (hne 10 (by decide)), if_neg (hne 13 (by decide)),
    if_neg (hne 9 (by decide)), if_neg hcontrol]

/-- What stands for a character in a string literal is text. -/
theorem isText_escape (char : Char) : IsText ((String.utf8EncodeChar char).flatMap escape) := by
  rcases utf8EncodeChar_ascii char with ⟨byte, hbyte, hchar⟩ | hall
  · rw [hchar, List.flatMap_singleton]
    exact isText_of_ascii (escape_ascii hbyte)
  · have hsame : (String.utf8EncodeChar char).flatMap escape = String.utf8EncodeChar char := by
      rw [List.flatMap_def, List.map_congr_left fun byte hbyte => escape_of_le (hall byte hbyte),
        ← List.flatMap_def, List.flatMap_singleton']
    rw [hsame]
    exact isText_utf8EncodeChar char

/-- A string literal is text. -/
theorem isText_writeText (text : String) : IsText (writeText text) := by
  have hquote : IsText [34] := isText_ascii (by decide)
  have hchars : (ofText text).flatMap escape =
      text.toList.flatMap fun char => (String.utf8EncodeChar char).flatMap escape := by
    rw [← List.flatMap_assoc, ← ofText_ofList, String.ofList_toList]
  have hinside : IsText ((ofText text).flatMap escape) := by
    rw [hchars]
    exact isText_flatMap fun char _ => isText_escape char
  exact (hquote.append hinside).append hquote

/-- A written integer is text. -/
theorem isText_writeInt (value : Int) : IsText (writeInt value) := by
  have hdigit : ∀ digit : Fin 10, Decimal.byte digit < 128 := by decide
  have hdigits : IsText ((Decimal.digits value.natAbs).map Decimal.byte) :=
    isText_of_ascii (List.forall_mem_map.mpr fun digit _ => hdigit digit)
  have hminus : IsText [45] := isText_ascii (by decide)
  rw [writeInt]
  split
  · exact hminus.append hdigits
  · exact hdigits

theorem isText_writeOption {α : Type} {write : α → Bytes} (h : ∀ value, IsText (write value))
    (field : Option α) : IsText (writeOption write field) := by
  cases field with
  | none => exact isText_ofText "null"
  | some value => exact h value

/-- Texts with commas between them are text. -/
theorem isText_writeList {items : List Bytes} (h : ∀ item ∈ items, IsText item) :
    IsText (writeList items) := by
  induction items with
  | nil => exact isText_nil
  | cons first others ih =>
    have hfirst : IsText first := h first List.mem_cons_self
    have hothers : IsText (writeList others) :=
      ih fun item hitem => h item (List.mem_cons_of_mem _ hitem)
    cases others with
    | nil => exact hfirst
    | cons second rest =>
      have hcomma : IsText [44] := isText_ascii (by decide)
      exact hfirst.append (hcomma.append hothers)

/-- An object whose values are text is text. -/
theorem isText_writeObject {members : List (String × Bytes)}
    (h : ∀ entry ∈ members, IsText entry.2) : IsText (writeObject members) := by
  have hmember : ∀ entry ∈ members, IsText (writeMember entry.1 entry.2) := by
    intro entry hentry
    have hcolon : IsText [58] := isText_ascii (by decide)
    exact (isText_writeText entry.1).append (hcolon.append (h entry hentry))
  have hlist : IsText (writeList (members.map fun entry => writeMember entry.1 entry.2)) :=
    isText_writeList (List.forall_mem_map.mpr hmember)
  have hopen : IsText [123] := isText_ascii (by decide)
  have hclose : IsText [125] := isText_ascii (by decide)
  exact (hopen.append hlist).append hclose

end Json

end PresenceTracker
