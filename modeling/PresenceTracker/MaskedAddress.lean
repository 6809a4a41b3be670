import PresenceTracker.Text

/-!
# Addresses without passwords

Addresses of servers go into the log with the password replaced by asterisks. The password
is what stands between the last at sign and the last colon in front of it, if that colon
does not belong to the scheme.
-/

namespace PresenceTracker.MaskedAddress

/-- The number of characters up to the end of the scheme; zero without a scheme. -/
def schemeEnd (address : List Char) : Nat :=
  match Text.splitFirst "://".toList address with
  | some (scheme, _) => scheme.length + 3
  | none => 0

/-- What stands in place of a password. -/
def stars : List Char := ":****@".toList

/-- An address with its password masked. A colon is taken for the one in front of the
password if its place, compared with the end of the scheme, passes the test. -/
def mask (passes : Nat → Nat → Bool) (address : List Char) : List Char :=
  match Text.splitLast '@' address with
  | none => address
  | some (front, rest) =>
    match Text.splitLast ':' front with
    | none => address
    | some (head, _) =>
      if passes head.length (schemeEnd address) then head ++ stars ++ rest else address

/-- The address of a cache server for the log. The user name may be empty. -/
def ofCacheServer (address : String) : String :=
  String.ofList (mask (fun colon scheme => scheme ≤ colon) address.toList)

/-- The address of a database for the log. A password without a user name is no password. -/
def ofDatabase (address : String) : String :=
  String.ofList (mask (fun colon scheme => scheme < colon) address.toList)

end PresenceTracker.MaskedAddress
