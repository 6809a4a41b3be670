import Mathlib.Algebra.GroupWithZero.Nat
import PresenceTracker.NodeId

/-!
# Reading back node identifiers

The hyphenated form of an identifier has 36 characters, which no other form has, and its groups
give the digits back.
-/

namespace PresenceTracker.NodeId

theorem mapM_hexValue?_map_hexDigit (digits : List (Fin 16)) :
    (digits.map Text.hexDigit).mapM Text.hexValue? = some digits := by
  induction digits with
  | nil => rfl
  | cons first others ih =>
    rw [List.map_cons, List.mapM_cons, Text.hexValue?_hexDigit, ih]
    rfl

/-- Written groups are as long as the digits and the hyphens between the groups. -/
theorem length_writeGroups {sizes : List Nat} (hsizes : sizes ≠ []) {digits : List (Fin 16)}
    (hdigits : digits.length = sizes.sum) :
    (writeGroups sizes digits).length + 1 = digits.length + sizes.length := by
  induction sizes generalizing digits with
  | nil => exact absurd rfl hsizes
  | cons size rest ih =>
    cases rest with
    | nil => simp [writeGroups]
    | cons next others =>
      rw [List.sum_cons] at hdigits
      have hbehind : (digits.drop size).length = (next :: others).sum := by
        rw [List.length_drop]
        omega
      have hrest := ih (List.cons_ne_nil next others) hbehind
      simp only [writeGroups, List.length_append, List.length_map, List.length_take,
        List.length_cons, List.length_drop] at hrest ⊢
      omega

/-- Written groups read back as the digits. -/
theorem readGroups?_writeGroups {sizes : List Nat} {digits : List (Fin 16)}
    (hdigits : digits.length = sizes.sum) :
    readGroups? sizes (writeGroups sizes digits) = some digits := by
  induction sizes generalizing digits with
  | nil =>
    obtain rfl : digits = [] := List.length_eq_zero_iff.mp hdigits
    rfl
  | cons size rest ih =>
    cases rest with
    | nil =>
      have hlength : digits.length = size := by simpa using hdigits
      simp only [writeGroups, readGroups?, List.length_map, hlength, if_true,
        mapM_hexValue?_map_hexDigit]
    | cons next others =>
      rw [List.sum_cons] at hdigits
      have hbehind : (digits.drop size).length = (next :: others).sum := by
        rw [List.length_drop]
        omega
      have hfront : ((digits.take size).map Text.hexDigit).length = size := by
        rw [List.length_map, List.length_take]
        omega
      have hread := ih hbehind
      simp only [writeGroups, readGroups?]
      rw [List.take_left' hfront, List.drop_left' hfront, mapM_hexValue?_map_hexDigit]
      simp [hread]

theorem ofDigits?_digits (node : NodeId) : ofDigits? node.digits.toList = some node := by
  have hlength : node.digits.toList.length = 32 := node.digits.length_toList
  rw [ofDigits?, dif_pos hlength]
  rfl

/-- The hyphenated form of an identifier reads back as the identifier. -/
theorem parse?_text (node : NodeId) : parse? node.text = some node := by
  have hlength : node.digits.toList.length = 32 := node.digits.length_toList
  have hsum : node.digits.toList.length = groups.sum := hlength
  have hwritten : (writeGroups groups node.digits.toList).length = 36 := by
    have := length_writeGroups (List.cons_ne_nil _ _) hsum
    rw [hlength] at this
    exact Nat.succ.inj this
  have hchars : node.text.toList = writeGroups groups node.digits.toList := String.toList_ofList
  rw [parse?, hchars]
  simp [hwritten, unwrap, readGroups?_writeGroups hsum, ofDigits?_digits]

end PresenceTracker.NodeId
