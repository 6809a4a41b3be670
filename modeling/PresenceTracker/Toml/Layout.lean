import PresenceTracker.Decimal.Digits

/-!
# Layout of TOML text

Blanks, line breaks and comments. A line break may be written with a carriage return in
front; no other control character but the tab stands anywhere in a text.
-/

namespace PresenceTracker.Toml

/-- Whether a character separates what stands on a line. -/
def isBlank (c : Char) : Bool := c = ' ' || c = '\t'

/-- Whether a character may stand in a comment, and for itself in a string. -/
def isPlain (c : Char) : Bool := c = '\t' || (' ' ≤ c && c ≠ '\x7f')

/-- What follows the line break in front. -/
def dropBreak : List Char → Option (List Char)
  | '\n' :: rest => some rest
  | '\r' :: '\n' :: rest => some rest
  | _ => none

/-- What follows the blanks in front. -/
def skipBlanks (text : List Char) : List Char := text.dropWhile isBlank

/-- What follows a comment, if there is one in front. -/
def skipComment : List Char → List Char
  | '#' :: rest => rest.dropWhile isPlain
  | text => text

/-- What follows the blanks, line breaks and comments in front, either inside a comment or
outside. -/
def skipGap (inComment : Bool) : List Char → List Char
  | [] => []
  | '\n' :: rest => skipGap false rest
  | '\r' :: '\n' :: rest => skipGap false rest
  | c :: rest =>
    if inComment then if isPlain c then skipGap true rest else c :: rest
    else if isBlank c then skipGap false rest
    else if c = '#' then skipGap true rest
    else c :: rest

/-- The lines behind the rest of a line, which holds nothing but blanks and a comment. -/
def endLine (text : List Char) : Option (List Char) :=
  match skipComment (skipBlanks text) with
  | [] => some []
  | rest => dropBreak rest

end PresenceTracker.Toml
