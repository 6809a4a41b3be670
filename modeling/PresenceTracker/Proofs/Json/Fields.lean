import PresenceTracker.Json.Shape
import PresenceTracker.Json.Value
import PresenceTracker.Proofs.Json.Values

/-!
# The fields of a read object

A reader of a structure finds the known members of an object in their order and passes over the
others, whatever their values are. A value that is set aside before its shape is known has to be
sound: its strings denote texts and its numbers are in range.
-/

namespace PresenceTracker.Json

/-- The members under known keys, in their order. -/
def known (keys : List String) (members : List Member) : List Member :=
  members.filter fun field => keys.contains field.key

/-- A field with a known key is kept. -/
theorem known_cons_pos {keys : List String} {first : Member} (h : keys.contains first.key = true)
    (others : List Member) : known keys (first :: others) = first :: known keys others :=
  List.filter_cons_of_pos h

/-- A field with another key is passed over. -/
theorem known_cons_neg {keys : List String} {first : Member} (h : ¬keys.contains first.key = true)
    (others : List Member) : known keys (first :: others) = known keys others :=
  List.filter_cons_of_neg h

/-- The known members of an object are found in their order if none of them is repeated. -/
theorem collect_tree {keys : List String} {members : List Member} {found : List (String × Json)}
    (hnodup : ((known keys members).map Member.key).Nodup)
    (hfresh : ∀ field ∈ known keys members,
      (found.any fun entry => entry.1 == field.key) = false) :
    collect keys found (members.map Member.tree) =
      .ok (found.reverse ++ (known keys members).map fun field => (field.key, field.json)) := by
  induction members generalizing found with
  | nil => simp [collect, known]
  | cons first others ih =>
    rw [List.map_cons, Member.tree, collect]
    by_cases hknown : keys.contains first.key = true
    · rw [known_cons_pos hknown] at hnodup hfresh ⊢
      obtain ⟨hnew, hothers⟩ := List.forall_mem_cons.mp hfresh
      rw [List.map_cons, List.nodup_cons] at hnodup
      have hnext : ∀ field ∈ known keys others,
          (((first.key, first.json) :: found).any fun entry => entry.1 == field.key) = false := by
        intro field hmem
        have hne : first.key ≠ field.key := fun heq =>
          hnodup.1 (heq ▸ List.mem_map_of_mem hmem)
        rw [List.any_cons, hothers field hmem, Bool.or_false]
        exact beq_eq_false_iff_ne.mpr hne
      rw [if_pos hknown, hnew, if_neg Bool.false_ne_true, ih hnodup.2 hnext]
      simp
    · rw [known_cons_neg hknown] at hnodup hfresh ⊢
      rw [if_neg hknown, ih hnodup hfresh]

/-- The known members of an object are its fields. -/
theorem fields_tree {keys : List String} {members : List Member}
    (hnodup : ((known keys members).map Member.key).Nodup) :
    fields keys (.object (members.map Member.tree)) =
      .ok ⟨true, (known keys members).map fun field => (field.key, field.json)⟩ := by
  rw [fields, collect_tree hnodup fun _ _ => rfl]
  rfl

/-- A tree that may be set aside at any depth. -/
def Sound (json : Json) : Prop := ∀ depth, ∃ value, JsonValue.ofJson depth json = .ok value

/-- Null may be set aside. -/
theorem sound_null : Sound .null := fun _ => ⟨.null, rfl⟩

/-- A truth value may be set aside. -/
theorem sound_bool (value : Bool) : Sound (.bool value) := fun _ => ⟨.bool value, rfl⟩

/-- A text may be set aside. -/
theorem sound_text (text : String) : Sound (.string (some text)) := fun _ => ⟨.text text, rfl⟩

/-- An integer of 64 bits is in range. -/
theorem sound_int {value : Int} (h : JsonNumber.fits value = true) :
    Sound (.number (.ofInt value)) := by
  intro depth
  refine ⟨.number (.integer value), ?_⟩
  simp [JsonValue.ofJson, JsonNumber.ofLiteral?, NumberLiteral.integer?_ofInt, h]

/-- Fields whose values may be set aside one by one may be set aside together. -/
theorem ofMembers_tree {members : List Member} (h : ∀ field ∈ members, Sound field.json)
    (depth : Nat) (before : List (String × JsonValue)) :
    ∃ read, JsonValue.ofMembers depth before (members.map Member.tree) = .ok read := by
  induction members generalizing before with
  | nil => exact ⟨before, rfl⟩
  | cons first others ih =>
    obtain ⟨value, hvalue⟩ := h first List.mem_cons_self depth
    obtain ⟨read, hread⟩ := ih (fun field hmem => h field (List.mem_cons_of_mem _ hmem))
      (JsonValue.insert first.key value before)
    refine ⟨read, ?_⟩
    rw [List.map_cons, Member.tree, JsonValue.ofMembers, hvalue]
    exact hread

/-- An object of sound values may be set aside where one more level is open. -/
theorem ofJson_object {members : List Member} (h : ∀ field ∈ members, Sound field.json)
    (depth : Nat) :
    ∃ value, JsonValue.ofJson (depth + 1) (.object (members.map Member.tree)) = .ok value := by
  obtain ⟨read, hread⟩ := ofMembers_tree h depth []
  refine ⟨.object read, ?_⟩
  rw [JsonValue.ofJson, hread]
  rfl

end PresenceTracker.Json
