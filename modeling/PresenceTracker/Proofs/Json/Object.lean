import PresenceTracker.Proofs.Json.Number

/-!
# Reading back written objects

If the value of every member denotes a tree, the written object denotes the object of
these trees, in the order of the members.
-/

namespace PresenceTracker.Json

/-- A member to be written, with the tree that its value denotes. -/
structure Member where
  /-- The key. -/
  key : String
  /-- The written value. -/
  written : Bytes
  /-- The tree of the value. -/
  json : Json
  /-- The written value denotes the tree. -/
  denotes : Denotes written json

namespace Member

/-- The member as it is written. -/
def bytes (field : Member) : Bytes := writeMember field.key field.written

/-- The member as it is read. -/
def tree (field : Member) : Option String × Json := (some field.key, field.json)

theorem length_bytes (field : Member) :
    field.written.length + 3 ≤ field.bytes.length := by
  simp only [bytes, writeMember, writeText, List.length_append, List.length_cons, List.length_nil]
  omega

/-- A reader of members takes one member up to the mark that follows it. -/
theorem readMembers_bytes (field : Member) {steps : Nat} {mark : UInt8} (rest : Bytes)
    (hsteps : 2 * field.written.length ≤ steps) (hmark : mark = 44 ∨ mark = 125) :
    readMembers (steps + 1) (field.bytes ++ mark :: rest) =
      if mark = 44 then
        (readMembers steps rest).map fun (others, rest) => (field.tree :: others, rest)
      else some ([field.tree], rest) := by
  have hkey := readText_writeText field.key (58 :: (field.written ++ mark :: rest))
  have hvalue : readValue steps (field.written ++ mark :: rest) = some (field.json, mark :: rest) :=
    field.denotes steps _ hsteps (delimits_cons (hmark.imp_right Or.inl) rest)
  have hblank : isBlank mark = false := by rcases hmark with rfl | rfl <;> decide
  have hbytes : field.bytes ++ mark :: rest =
      34 :: ((Bytes.ofText field.key).flatMap escape ++
        34 :: 58 :: (field.written ++ mark :: rest)) := by
    simp [bytes, writeMember, writeText]
  rw [hbytes, readMembers, skipBlanks_cons (show isBlank 34 = false by decide)]
  simp only [hkey, skipBlanks_cons (show isBlank 58 = false by decide), hvalue,
    skipBlanks_cons hblank]
  rcases hmark with rfl | rfl
  · rw [if_pos rfl]
    cases hothers : readMembers steps rest <;> simp [hothers, tree]
  · rfl

/-- A reader of members takes all written members up to the closing brace. -/
theorem readMembers_writeList {first : Member} {others : List Member} {bound : Nat}
    {rest : Bytes}
    (hbound : 2 * (writeList ((first :: others).map bytes)).length + 1 ≤ bound) :
    readMembers bound (writeList ((first :: others).map bytes) ++ 125 :: rest) =
      some ((first :: others).map tree, rest) := by
  induction others generalizing first bound with
  | nil =>
    have hlen := first.length_bytes
    simp only [List.map_cons, List.map_nil, writeList] at hbound ⊢
    obtain ⟨steps, rfl⟩ : ∃ steps, bound = steps + 1 := ⟨bound - 1, by omega⟩
    rw [first.readMembers_bytes rest (by omega) (Or.inr rfl), if_neg (by decide)]
  | cons second others ih =>
    have hlen := first.length_bytes
    have hsplit : writeList ((first :: second :: others).map bytes) =
        first.bytes ++ 44 :: writeList ((second :: others).map bytes) := rfl
    rw [hsplit, List.length_append, List.length_cons] at hbound
    obtain ⟨steps, rfl⟩ : ∃ steps, bound = steps + 1 := ⟨bound - 1, by omega⟩
    rw [hsplit, List.append_assoc, List.cons_append,
      first.readMembers_bytes _ (by omega) (Or.inl rfl), if_pos rfl, ih (by omega)]
    rfl

end Member

/-- A written object denotes the object of the trees of its members. -/
theorem denotes_writeObject (members : List Member) :
    Denotes (writeObject (members.map fun field => (field.key, field.written)))
      (.object (members.map Member.tree)) := by
  intro bound rest hbound _
  have hobject : writeObject (members.map fun field => (field.key, field.written)) =
      123 :: (writeList (members.map Member.bytes) ++ [125]) := by
    simp only [writeObject, List.map_map, List.cons_append]
    rfl
  rw [hobject] at hbound ⊢
  simp only [List.length_cons, List.length_append, List.length_nil] at hbound
  obtain ⟨steps, rfl⟩ : ∃ steps, bound = steps + 1 := ⟨bound - 1, by omega⟩
  simp only [List.cons_append, List.append_assoc, List.nil_append, readValue,
    skipBlanks_cons (show isBlank 123 = false by decide)]
  cases members with
  | nil => rfl
  | cons first others =>
    have hread : readMembers steps (writeList ((first :: others).map Member.bytes) ++
        125 :: rest) = some ((first :: others).map Member.tree, rest) :=
      Member.readMembers_writeList (by omega)
    obtain ⟨tail, htail⟩ : ∃ tail, writeList ((first :: others).map Member.bytes) ++ 125 :: rest =
        34 :: tail := by
      cases others <;> exact ⟨_, rfl⟩
    rw [htail] at hread ⊢
    rw [skipBlanks_cons (show isBlank 34 = false by decide)]
    simp [hread]

end PresenceTracker.Json
