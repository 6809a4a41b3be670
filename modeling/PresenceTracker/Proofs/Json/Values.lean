import Mathlib.Data.List.DropRight
import PresenceTracker.Proofs.Json.Object

/-!
# Reading arbitrary JSON values

The texts of JSON values without white space: scalars, numbers with any fraction and exponent,
and arrays and objects of values, nested as deeply as one likes. Each of them denotes a tree,
so a reader that has no use for a value finds its end.
-/

namespace PresenceTracker.Json

open Decimal

section Numbers

/-- What may stand behind the digits of a number as its fraction. -/
inductive FractionText : Bytes → Prop where
  /-- There is no fraction. -/
  | absent : FractionText []
  /-- A point and digits. -/
  | present {digits : Digits} (h : digits ≠ []) : FractionText (46 :: digits.map byte)

/-- What may stand at the end of a number as its exponent. -/
inductive ExponentText : Bytes → Prop where
  /-- There is no exponent. -/
  | absent : ExponentText []
  /-- A mark, perhaps a sign, and digits. -/
  | present {mark : UInt8} {sign : Bytes} {digits : Digits} (hmark : mark = 101 ∨ mark = 69)
      (hsign : sign = [] ∨ sign = [43] ∨ sign = [45]) (h : digits ≠ []) :
      ExponentText (mark :: (sign ++ digits.map byte))

/-- The text of a number: perhaps a minus, digits without a leading zero, and perhaps a
fraction and an exponent. -/
inductive NumberText : Bytes → Prop where
  /-- A number of its parts. -/
  | parts {sign fraction exponent : Bytes} {digits : Digits} (hsign : sign = [] ∨ sign = [45])
      (h : digits ≠ []) (hzero : hasLeadingZero digits = false)
      (hfraction : FractionText fraction) (hexponent : ExponentText exponent) :
      NumberText (sign ++ digits.map byte ++ fraction ++ exponent)

/-- Behind digits a reader of a fraction takes the fraction. -/
theorem FractionText.read {fraction : Bytes} (h : FractionText fraction) :
    ∃ read, ∀ rest, EndsDigits rest → rest.head? ≠ some 46 →
      readFraction (fraction ++ rest) = some (read, rest) := by
  cases h with
  | absent =>
    refine ⟨none, fun rest _ hpoint => ?_⟩
    rw [List.nil_append, readFraction]
    intro behind heq
    exact hpoint (by rw [heq]; rfl)
  | @present digits hsome =>
    refine ⟨some digits, fun rest hdigits _ => ?_⟩
    have hleading := leading_map_byte digits hdigits
    have hafter := afterDigits_map_byte digits hdigits
    simp [readFraction, hleading, hafter, hsome]

theorem FractionText.endsDigits {fraction : Bytes} (h : FractionText fraction) {rest : Bytes}
    (hrest : EndsDigits rest) : EndsDigits (fraction ++ rest) := by
  cases h with
  | absent => exact hrest
  | present =>
    intro first hfirst
    cases hfirst
    decide

theorem byte_ne_plus (digit : Fin 10) : byte digit ≠ 43 := by
  revert digit
  decide

/-- A sign in front of digits is taken, if there is one. -/
theorem readSign_digits {sign : Bytes} (hsign : sign = [] ∨ sign = [43] ∨ sign = [45])
    {digits : Digits} (h : digits ≠ []) :
    ∃ negative, ∀ rest, readSign (sign ++ (digits.map byte ++ rest)) =
      (negative, digits.map byte ++ rest) := by
  obtain ⟨first, others, rfl⟩ := List.exists_cons_of_ne_nil h
  rcases hsign with rfl | rfl | rfl
  · refine ⟨false, fun rest => ?_⟩
    rw [List.nil_append, List.map_cons, List.cons_append, readSign]
    · exact fun _ heq => byte_ne_plus first (List.cons.inj heq).1
    · exact fun _ heq => byte_ne_minus first (List.cons.inj heq).1
  · exact ⟨false, fun _ => rfl⟩
  · exact ⟨true, fun _ => rfl⟩

/-- Behind a fraction a reader of an exponent takes the exponent. -/
theorem ExponentText.read {exponent : Bytes} (h : ExponentText exponent) :
    ∃ read, ∀ rest, Delimits rest → readExponent (exponent ++ rest) = some (read, rest) := by
  cases h with
  | absent => exact ⟨none, fun _ hrest => readExponent_of_delimits hrest⟩
  | @present mark sign digits hmark hsign hsome =>
    obtain ⟨negative, hread⟩ := readSign_digits hsign hsome
    refine ⟨some (negative, digits), fun rest hrest => ?_⟩
    have hleading := leading_map_byte digits hrest.endsDigits
    have hafter := afterDigits_map_byte digits hrest.endsDigits
    rw [List.cons_append, List.append_assoc]
    simp [readExponent, hmark, hread, hleading, hafter, hsome]

/-- Where an exponent may stand there is no digit and no point. -/
theorem ExponentText.begins {exponent : Bytes} (h : ExponentText exponent) {rest : Bytes}
    (hrest : Delimits rest) :
    EndsDigits (exponent ++ rest) ∧ (exponent ++ rest).head? ≠ some 46 := by
  cases h with
  | absent => exact ⟨hrest.endsDigits, fun hpoint => (hrest 46 hpoint).2.1 rfl⟩
  | @present mark sign digits hmark hsign hsome =>
    constructor
    · intro first hfirst
      cases hfirst
      rcases hmark with rfl | rfl <;> decide
    · intro hpoint
      rcases hmark with rfl | rfl <;> cases hpoint

/-- The text of a number is read as a number, up to what follows it. -/
theorem NumberText.read {text : Bytes} (h : NumberText text) :
    ∃ literal, ∀ rest, Delimits rest → readNumber (text ++ rest) = some (literal, rest) := by
  cases h with
  | @parts sign fraction exponent digits hsign hsome hzero hfraction hexponent =>
    obtain ⟨readFrac, hfrac⟩ := hfraction.read
    obtain ⟨readExp, hexp⟩ := hexponent.read
    have hparts : ∀ rest, Delimits rest →
        leading (digits.map byte ++ (fraction ++ (exponent ++ rest))) = digits ∧
        readFraction (afterDigits (digits.map byte ++ (fraction ++ (exponent ++ rest)))) =
          some (readFrac, exponent ++ rest) := by
      intro rest hrest
      obtain ⟨hends, hpoint⟩ := hexponent.begins hrest
      rw [afterDigits_map_byte digits (hfraction.endsDigits hends)]
      exact ⟨leading_map_byte digits (hfraction.endsDigits hends), hfrac _ hends hpoint⟩
    rcases hsign with rfl | rfl
    · refine ⟨⟨false, digits, readFrac, readExp⟩, fun rest hrest => ?_⟩
      obtain ⟨hleading, hbehind⟩ := hparts rest hrest
      obtain ⟨first, others, hfirst⟩ := List.exists_cons_of_ne_nil hsome
      have hplain : ∀ tail, digits.map byte ++ (fraction ++ (exponent ++ rest)) ≠ 45 :: tail := by
        intro tail heq
        rw [hfirst, List.map_cons, List.cons_append] at heq
        exact byte_ne_minus first (List.cons.inj heq).1
      simp only [List.append_assoc, List.nil_append]
      rw [readNumber]
      · simp [hleading, hsome, hzero, hbehind, hexp rest hrest]
      · exact hplain
    · refine ⟨⟨true, digits, readFrac, readExp⟩, fun rest hrest => ?_⟩
      obtain ⟨hleading, hbehind⟩ := hparts rest hrest
      simp [readNumber, hleading, hsome, hzero, hbehind, hexp rest hrest]

/-- The text of a number begins with a minus or a digit. -/
theorem NumberText.begins {text : Bytes} (h : NumberText text) :
    ∃ first others, text = first :: others ∧ (first = 45 ∨ isDigit first = true) := by
  cases h with
  | @parts sign fraction exponent digits hsign hsome =>
    obtain ⟨first, others, rfl⟩ := List.exists_cons_of_ne_nil hsome
    rcases hsign with rfl | rfl
    · exact ⟨byte first, _, rfl, Or.inr (isDigit_byte first)⟩
    · exact ⟨45, _, rfl, Or.inl rfl⟩

/-- The text of a number denotes a number. -/
theorem NumberText.denotes {text : Bytes} (h : NumberText text) : ∃ json, Denotes text json := by
  obtain ⟨literal, hread⟩ := h.read
  obtain ⟨first, others, rfl, hfirst⟩ := h.begins
  exact ⟨.number literal, denotes_number hfirst hread⟩

end Numbers

section Arrays

/-- An item to be written, with the tree that it denotes. -/
structure Item where
  /-- The written item. -/
  written : Bytes
  /-- The tree of the item. -/
  json : Json
  /-- The written item denotes the tree. -/
  denotes : Denotes written json

/-- Nothing denotes a tree without a byte. -/
theorem Denotes.length_pos {written : Bytes} {json : Json} (h : Denotes written json) :
    0 < written.length := by
  cases written with
  | nil =>
    have hread := h 0 [] (Nat.le_refl _) delimits_nil
    cases hread
  | cons first others => exact Nat.succ_pos _

/-- White space in front of a value makes no difference. -/
theorem readValue_skipBlanks (bound : Nat) (input : Bytes) :
    readValue bound (skipBlanks input) = readValue bound input := by
  cases bound with
  | zero => rfl
  | succ steps =>
    have hskip : skipBlanks (skipBlanks input) = skipBlanks input := List.dropWhile_idempotent _ _
    rw [readValue, readValue, hskip]

theorem readItems_skipBlanks (bound : Nat) (input : Bytes) :
    readItems bound (skipBlanks input) = readItems bound input := by
  cases bound with
  | zero => rfl
  | succ steps => rw [readItems, readItems, readValue_skipBlanks]

/-- No value begins with a closing bracket. -/
theorem readValue_bracket (bound : Nat) (rest : Bytes) : readValue bound (93 :: rest) = none := by
  cases bound with
  | zero => rfl
  | succ steps =>
    have hleading : leading (93 :: rest) = [] := by
      rw [leading, List.takeWhile_cons_of_neg (by decide)]
      rfl
    rw [readValue, skipBlanks_cons (show isBlank 93 = false by decide)]
    simp [readScalar, readNumber, hleading]

theorem readItems_bracket (bound : Nat) (rest : Bytes) : readItems bound (93 :: rest) = none := by
  cases bound with
  | zero => rfl
  | succ steps => rw [readItems, readValue_bracket]

namespace Item

/-- A reader of items takes one item up to the mark that follows it. -/
theorem readItems_written (item : Item) {steps : Nat} {mark : UInt8} (rest : Bytes)
    (hsteps : 2 * item.written.length ≤ steps) (hmark : mark = 44 ∨ mark = 93) :
    readItems (steps + 1) (item.written ++ mark :: rest) =
      if mark = 44 then (readItems steps rest).map fun (others, rest) => (item.json :: others, rest)
      else some ([item.json], rest) := by
  have hdelimits : Delimits (mark :: rest) := delimits_cons (hmark.imp_right Or.inr) rest
  have hvalue := item.denotes steps (mark :: rest) hsteps hdelimits
  have hblank : isBlank mark = false := by rcases hmark with rfl | rfl <;> decide
  rw [readItems]
  simp only [hvalue, skipBlanks_cons hblank]
  rcases hmark with rfl | rfl
  · rw [if_pos rfl]
    cases hothers : readItems steps rest <;> simp [hothers]
  · rfl

/-- A reader of items takes all written items up to the closing bracket. -/
theorem readItems_writeList {first : Item} {others : List Item} {bound : Nat} {rest : Bytes}
    (hbound : 2 * (writeList ((first :: others).map written)).length + 1 ≤ bound) :
    readItems bound (writeList ((first :: others).map written) ++ 93 :: rest) =
      some ((first :: others).map json, rest) := by
  induction others generalizing first bound with
  | nil =>
    simp only [List.map_cons, List.map_nil, writeList] at hbound ⊢
    obtain ⟨steps, rfl⟩ : ∃ steps, bound = steps + 1 := ⟨bound - 1, by omega⟩
    rw [first.readItems_written rest (by omega) (Or.inr rfl), if_neg (by decide)]
  | cons second others ih =>
    have hsplit : writeList ((first :: second :: others).map written) =
        first.written ++ 44 :: writeList ((second :: others).map written) := rfl
    rw [hsplit, List.length_append, List.length_cons] at hbound
    obtain ⟨steps, rfl⟩ : ∃ steps, bound = steps + 1 := ⟨bound - 1, by omega⟩
    have hlen := first.denotes.length_pos
    rw [hsplit, List.append_assoc, List.cons_append,
      first.readItems_written _ (by omega) (Or.inl rfl), if_pos rfl, ih (by omega)]
    rfl

end Item

/-- A written array denotes the array of the trees of its items. -/
theorem denotes_writeArray (items : List Item) :
    Denotes (writeArray (items.map Item.written)) (.array (items.map Item.json)) := by
  intro bound rest hbound _
  simp only [writeArray, List.length_cons, List.length_append, List.length_nil] at hbound
  obtain ⟨steps, rfl⟩ : ∃ steps, bound = steps + 1 := ⟨bound - 1, by omega⟩
  simp only [writeArray, List.cons_append, List.append_assoc, List.nil_append, readValue,
    skipBlanks_cons (show isBlank 91 = false by decide)]
  cases items with
  | nil => rfl
  | cons first others =>
    have hread : readItems steps (writeList ((first :: others).map Item.written) ++ 93 :: rest) =
        some ((first :: others).map Item.json, rest) := Item.readItems_writeList (by omega)
    rw [← readItems_skipBlanks] at hread
    split
    case h_1 heq =>
      rw [heq, readItems_bracket] at hread
      cases hread
    case h_2 => rw [hread]

end Arrays

/-- The texts of JSON values without white space. -/
inductive ValueText : Bytes → Prop where
  /-- The literal `null`. -/
  | null : ValueText writeNull
  /-- A truth value. -/
  | bool (value : Bool) : ValueText (writeBool value)
  /-- A number. -/
  | number {text : Bytes} (h : NumberText text) : ValueText text
  /-- A text. -/
  | text (text : String) : ValueText (writeText text)
  /-- An array of values. -/
  | array {items : List Bytes} (h : ∀ item ∈ items, ValueText item) :
      ValueText (writeArray items)
  /-- An object of values under any keys, which may be repeated. -/
  | object {members : List (String × Bytes)} (h : ∀ entry ∈ members, ValueText entry.2) :
      ValueText (writeObject members)

/-- Texts that denote trees are written items. -/
theorem exists_items {texts : List Bytes} (h : ∀ text ∈ texts, ∃ json, Denotes text json) :
    ∃ items : List Item, items.map Item.written = texts := by
  induction texts with
  | nil => exact ⟨[], rfl⟩
  | cons first others ih =>
    obtain ⟨json, hjson⟩ := h first List.mem_cons_self
    obtain ⟨items, hitems⟩ := ih fun text htext => h text (List.mem_cons_of_mem _ htext)
    exact ⟨⟨first, json, hjson⟩ :: items, by rw [List.map_cons, hitems]⟩

/-- Members whose values denote trees of some kind are written members with such trees. -/
theorem exists_members {entries : List (String × Bytes)} (Suits : String → Json → Prop)
    (h : ∀ entry ∈ entries, ∃ json, Denotes entry.2 json ∧ Suits entry.1 json) :
    ∃ members : List Member, members.map (fun field => (field.key, field.written)) = entries ∧
      ∀ field ∈ members, Suits field.key field.json := by
  induction entries with
  | nil => exact ⟨[], rfl, nofun⟩
  | cons first others ih =>
    obtain ⟨json, hjson, hsuits⟩ := h first List.mem_cons_self
    obtain ⟨members, hmembers, hall⟩ :=
      ih fun entry hentry => h entry (List.mem_cons_of_mem _ hentry)
    refine ⟨⟨first.1, first.2, json, hjson⟩ :: members, by rw [List.map_cons, hmembers], ?_⟩
    exact List.forall_mem_cons.mpr ⟨hsuits, hall⟩

/-- The text of a JSON value denotes a tree. -/
theorem ValueText.denotes {text : Bytes} (h : ValueText text) : ∃ json, Denotes text json := by
  induction h with
  | null => exact ⟨_, denotes_writeNull⟩
  | bool value => exact ⟨_, denotes_writeBool value⟩
  | number h => exact h.denotes
  | text text => exact ⟨_, denotes_writeText text⟩
  | array _ ih =>
    obtain ⟨items, rfl⟩ := exists_items ih
    exact ⟨_, denotes_writeArray items⟩
  | object _ ih =>
    have hentries := fun entry hentry => (ih entry hentry).imp fun json hjson =>
      And.intro hjson trivial
    obtain ⟨members, rfl, -⟩ := exists_members (fun _ _ => True) hentries
    exact ⟨_, denotes_writeObject members⟩

end PresenceTracker.Json
