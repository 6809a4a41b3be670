import PresenceTracker.MaskedAddress

/-!
# What an address in the log shows of its password

The address of a server is called for with a password, and written to the log without it. Both
ways of masking take for the password what stands behind the last colon: a password without
colons does not show, and of one with colons the part in front of its last colon does. The two
ways differ where no user is named. The address of a cache server is masked all the same, while
in the address of a database a password without colons is then written out.
-/

namespace PresenceTracker

namespace Text

/-- The first place of a part is behind a text that lacks the character the part begins with. -/
theorem splitFirst_append {mark : Char} {part front : List Char} (h : mark ∉ front)
    (back : List Char) :
    splitFirst (mark :: part) (front ++ mark :: part ++ back) = some (front, back) := by
  induction front with
  | nil => simp [splitFirst, List.isPrefixOf_iff_prefix]
  | cons c front ih =>
    rw [List.mem_cons, not_or] at h
    have hother : (mark == c) = false := by simpa using h.1
    simpa [splitFirst, List.isPrefixOf, hother] using ih h.2

/-- The last place of a mark stays the last one behind anything else. -/
theorem splitLast_append {mark : Char} {text front back : List Char}
    (h : splitLast mark text = some (front, back)) (more : List Char) :
    splitLast mark (more ++ text) = some (more ++ front, back) := by
  induction more with
  | nil => exact h
  | cons c more ih => rw [List.cons_append, splitLast, ih, List.cons_append]

end Text

namespace MaskedAddress

/-- What the address of a server says besides the password. -/
structure Account where
  /-- The scheme. -/
  scheme : List Char
  /-- The user, who need not be named. -/
  user : List Char
  /-- Everything behind the password. -/
  server : List Char
  /-- The first colon is that behind the scheme. -/
  scheme_plain : ':' ∉ scheme
  /-- The last at sign is that behind the password. -/
  server_plain : '@' ∉ server

/-- What stands in front of the last colon of a password, if the password has a colon. -/
def front? (password : List Char) : Option (List Char) :=
  (Text.splitLast ':' password).map Prod.fst

theorem front?_eq_none_iff {password : List Char} : front? password = none ↔ ':' ∉ password := by
  rw [front?, Option.map_eq_none_iff, Text.splitLast_eq_none_iff]

/-- What shows of a password whose front part shows: that part behind its colon. -/
def visible (shown : Option (List Char)) : List Char := shown.elim [] fun front => ':' :: front

theorem visible_inj {shown other : Option (List Char)} :
    visible shown = visible other ↔ shown = other := by
  cases shown <;> cases other <;> simp [visible]

theorem visible_eq_nil_iff {shown : Option (List Char)} : visible shown = [] ↔ shown = none := by
  cases shown <;> simp [visible]

namespace Account

variable (account : Account)

/-- The address up to the end of the user's name. -/
def head : List Char := account.scheme ++ "://".toList ++ account.user

/-- The address with a password in it. -/
def address (password : List Char) : String :=
  String.ofList (account.head ++ ':' :: (password ++ '@' :: account.server))

/-- The address with asterisks in it, and with what shows of the password in front of them. -/
def masked (shown : Option (List Char)) : String :=
  String.ofList (account.head ++ visible shown ++ stars ++ account.server)

variable {account}

/-- Addresses with different passwords are different. -/
theorem address_inj {password other : List Char} :
    account.address password = account.address other ↔ password = other := by
  refine ⟨fun h => ?_, fun h => by rw [h]⟩
  simpa [address] using String.ofList_injective h

/-- Whatever shows in front of the asterisks can be told. -/
theorem masked_inj {shown other : Option (List Char)} :
    account.masked shown = account.masked other ↔ shown = other := by
  refine ⟨fun h => ?_, fun h => by rw [h]⟩
  have hchars := List.append_cancel_right (List.append_cancel_right (String.ofList_injective h))
  exact visible_inj.mp (List.append_cancel_left hchars)

/-- An address with a password that has no colon is not one with asterisks behind a colon of the
password. -/
theorem address_ne_masked {password : List Char} (hplain : front? password = none)
    (front : List Char) : account.address password ≠ account.masked (some front) := by
  intro h
  have hchars := String.ofList_injective h
  rw [List.append_assoc, List.append_assoc] at hchars
  have htail : password ++ '@' :: account.server =
      (front ++ ":****".toList) ++ '@' :: account.server := by
    simpa [visible, stars] using List.append_cancel_left hchars
  refine front?_eq_none_iff.mp hplain ?_
  rw [List.append_cancel_right htail]
  simp

/-- The scheme of an address ends where the account's scheme does. -/
theorem schemeEnd_address (password : List Char) :
    schemeEnd (account.address password).toList = account.scheme.length + 3 := by
  have hchars : (account.address password).toList = account.scheme ++ ':' :: "//".toList ++
      (account.user ++ ':' :: (password ++ '@' :: account.server)) := by
    simp [address, head]
  have hfirst : Text.splitFirst "://".toList (account.address password).toList = some _ :=
    hchars ▸ Text.splitFirst_append account.scheme_plain _
  rw [schemeEnd, hfirst]

/-- Masking puts asterisks in the place of what stands behind the last colon of the password, or
of the whole password if that has none, provided that the place of this colon passes. -/
theorem mask_address (passes : Nat → Nat → Bool) (password : List Char) :
    String.ofList (mask passes (account.address password).toList) =
      if passes (account.head ++ visible (front? password)).length (account.scheme.length + 3)
      then account.masked (front? password) else account.address password := by
  have hsplit : Text.splitLast '@' (account.address password).toList =
      some (account.head ++ ':' :: password, account.server) := by
    rw [address, String.toList_ofList, ← List.cons_append, ← List.append_assoc]
    exact Text.splitLast_append_mark _ account.server_plain
  have hcolon : ∃ tail, Text.splitLast ':' (account.head ++ ':' :: password) =
      some (account.head ++ visible (front? password), tail) := by
    cases hfront : Text.splitLast ':' password with
    | none =>
      refine ⟨password, ?_⟩
      rw [Text.splitLast_append_mark _ (Text.splitLast_eq_none_iff.mp hfront)]
      simp [front?, hfront, visible]
    | some parts =>
      refine ⟨parts.2, Text.splitLast_append ?_ account.head⟩
      simp [Text.splitLast, front?, hfront, visible]
  obtain ⟨tail, hcolon⟩ := hcolon
  rw [mask, hsplit]
  dsimp only
  rw [hcolon, schemeEnd_address]
  dsimp only
  split
  · rfl
  · rw [String.ofList_toList]

theorem ofCacheServer_address (password : List Char) :
    ofCacheServer (account.address password) = account.masked (front? password) := by
  rw [ofCacheServer, mask_address, if_pos]
  simp [head]

/-- The colon in front of a database's password passes, unless it is the one behind the scheme. -/
theorem ofDatabase_address (password : List Char) : ofDatabase (account.address password) =
    if account.user = [] ∧ front? password = none then account.address password
    else account.masked (front? password) := by
  have hplace : (account.head ++ visible (front? password)).length =
      account.scheme.length + 3 + (account.user.length + (visible (front? password)).length) := by
    simp [head]
    omega
  rw [ofDatabase, mask_address, hplace]
  by_cases hbare : account.user = [] ∧ front? password = none
  · rw [if_pos hbare, if_neg]
    simp [hbare, visible]
  · rw [if_neg hbare, if_pos]
    have hlength : account.user.length + (visible (front? password)).length ≠ 0 := by
      rwa [Ne, Nat.add_eq_zero_iff, List.length_eq_zero_iff, List.length_eq_zero_iff,
        visible_eq_nil_iff]
    exact decide_eq_true (by omega)

end Account

/-- Two addresses that differ in the password have the same text for a cache server exactly if the
passwords agree in front of their last colons, as passwords without colons do. For a database the
same holds where a user is named or the passwords have colons; where no user is named, passwords
without colons have the same text only if they are the same. -/
theorem same_text_iff (account : Account) (password other : List Char) :
    (ofCacheServer (account.address password) = ofCacheServer (account.address other) ↔
      front? password = front? other) ∧
    (ofDatabase (account.address password) = ofDatabase (account.address other) ↔
      password = other ∨
        front? password = front? other ∧ (account.user ≠ [] ∨ front? password ≠ none)) := by
  constructor
  · rw [Account.ofCacheServer_address, Account.ofCacheServer_address, Account.masked_inj]
  · rw [Account.ofDatabase_address, Account.ofDatabase_address]
    by_cases hbare : account.user = [] ∧ front? password = none
    · obtain ⟨huser, hplain⟩ := hbare
      rw [if_pos ⟨huser, hplain⟩]
      cases hother : front? other with
      | none => simp [huser, hplain, Account.address_inj]
      | some front =>
        have hne : password ≠ other := fun hsame => by simp [← hsame, hplain] at hother
        simp [hplain, hne, Account.address_ne_masked hplain]
    · rw [if_neg hbare]
      by_cases hother : account.user = [] ∧ front? other = none
      · obtain ⟨huser, hplain⟩ := hother
        rw [if_pos ⟨huser, hplain⟩]
        cases hfront : front? password with
        | none => exact absurd ⟨huser, hfront⟩ hbare
        | some front =>
          have hne : password ≠ other := fun hsame => by simp [hsame, hplain] at hfront
          simp [hplain, hne, (Account.address_ne_masked hplain front).symm]
      · rw [if_neg hother, Account.masked_inj]
        refine ⟨fun hfront => .inr ⟨hfront, Classical.not_and_iff_not_or_not.mp hbare⟩, ?_⟩
        rintro (hsame | ⟨hfront, -⟩)
        · rw [hsame]
        · exact hfront

/-- A user of a cache server. -/
def namedUser : Account := ⟨"redis".toList, "ada".toList, "cache:6379".toList, by decide, by decide⟩

/-- A database that is called without naming a user. -/
def noUser : Account := ⟨"postgres".toList, [], "db:5432".toList, by decide, by decide⟩

/-- A password that may stand in an address as it is: there is one, and it has none of the
characters that would end it. -/
def Unescaped (password : List Char) : Prop :=
  password ≠ [] ∧ '/' ∉ password ∧ '?' ∉ password ∧ '#' ∉ password ∧ '@' ∉ password

instance (password : List Char) : Decidable (Unescaped password) :=
  inferInstanceAs (Decidable (_ ∧ _))

/-- A password with a colon shows up to its last colon, and a password without colons shows in the
address of a database if no user is named. -/
theorem password_shows :
    ¬(∀ password other : List Char, Unescaped password → Unescaped other →
        ofCacheServer (namedUser.address password) = ofCacheServer (namedUser.address other)) ∧
      ¬(∀ password other : List Char, Unescaped password → Unescaped other →
        ':' ∉ password → ':' ∉ other →
          ofDatabase (noUser.address password) = ofDatabase (noUser.address other)) := by
  refine ⟨fun hclaim => ?_, fun hclaim => ?_⟩
  · exact absurd (hclaim "se:cret".toList "pa:cret".toList (by decide) (by decide))
      (by decide +kernel)
  · exact absurd (hclaim "secret".toList "hidden".toList (by decide) (by decide) (by decide)
      (by decide)) (by decide +kernel)

end MaskedAddress

end PresenceTracker
