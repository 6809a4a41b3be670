import PresenceTracker.Text
import PresenceTracker.Toml.Layout

/-!
# Strings and keys of TOML text

Strings stand between single or double quotes, on one line or, between three quotes, on
several. Only between double quotes has the backslash a meaning. A key is a path of names;
each is a string on one line or a word.
-/

namespace PresenceTracker.Toml

/-- The character that a letter behind a backslash stands for. -/
def escaped? : Char → Option Char
  | 'b' => some '\x08'
  | 'e' => some '\x1b'
  | 't' => some '\t'
  | 'n' => some '\n'
  | 'f' => some '\x0c'
  | 'r' => some '\r'
  | '"' => some '"'
  | '\\' => some '\\'
  | _ => none

/-- The number that hexadecimal digits stand for. -/
def hexNumber? (digits : List Char) : Option Nat :=
  (digits.mapM Text.hexValue?).map fun values =>
    values.foldl (fun found value => found * 16 + value.val) 0

/-- The character of a code point given by a number of hexadecimal digits. -/
def readCodePoint (size : Nat) (text : List Char) : Option (Char × List Char) := do
  let digits := text.take size
  if digits.length < size then none
  else
    let value ← hexNumber? digits
    if value.isValidChar then some (Char.ofNat value, text.drop size) else none

/-- The character that stands for what is behind a backslash. -/
def readEscape : List Char → Option (Char × List Char)
  | 'x' :: rest => readCodePoint 2 rest
  | 'u' :: rest => readCodePoint 4 rest
  | 'U' :: rest => readCodePoint 8 rest
  | letter :: rest => (escaped? letter).map (·, rest)
  | [] => none

/-- What follows the blanks and line breaks in front. -/
def skipSpace : List Char → List Char
  | [] => []
  | '\n' :: rest => skipSpace rest
  | '\r' :: '\n' :: rest => skipSpace rest
  | c :: rest => if isBlank c then skipSpace rest else c :: rest

/-- What follows a line break that a backslash hides, and all blanks and line breaks behind. -/
def skipHiddenBreak (text : List Char) : Option (List Char) :=
  (dropBreak (skipBlanks text)).map skipSpace

/-- A string between double quotes on one line, behind the opening quote. The characters
read before are given in reverse; the number of steps is bounded. -/
def readQuoted (before : List Char) : Nat → List Char → Option (String × List Char)
  | 0, _ => none
  | _, [] => none
  | bound + 1, c :: rest =>
    if c = '"' then some (String.ofList before.reverse, rest)
    else if c = '\\' then
      match readEscape rest with
      | some (found, rest) => readQuoted (found :: before) bound rest
      | none => none
    else if isPlain c then readQuoted (c :: before) bound rest
    else none

/-- A string between single quotes on one line, behind the opening quote. -/
def readLiteral (text : List Char) : Option (String × List Char) :=
  let content := text.takeWhile fun c => c ≠ '\'' && isPlain c
  match text.drop content.length with
  | '\'' :: rest => some (String.ofList content, rest)
  | _ => none

/-- What a string on several lines ends with: up to two quotes that belong to it may stand
in front of the closing ones. Given is what follows three quotes. -/
def closeLines (quote : Char) (before : List Char) (text : List Char) : String × List Char :=
  let extra := (text.take 2).takeWhile (· = quote)
  (String.ofList (before.reverse ++ extra), text.drop extra.length)

/-- A string between three double quotes, behind the opening quotes. Line breaks stand for
themselves, in the form in which they are written. -/
def readQuotedLines (before : List Char) : Nat → List Char → Option (String × List Char)
  | 0, _ => none
  | _, [] => none
  | _, '"' :: '"' :: '"' :: rest => some (closeLines '"' before rest)
  | bound + 1, '\\' :: rest =>
    match skipHiddenBreak rest with
    | some rest => readQuotedLines before bound rest
    | none =>
      match readEscape rest with
      | some (found, rest) => readQuotedLines (found :: before) bound rest
      | none => none
  | bound + 1, '\r' :: '\n' :: rest => readQuotedLines ('\n' :: '\r' :: before) bound rest
  | bound + 1, c :: rest =>
    if c = '\n' || isPlain c then readQuotedLines (c :: before) bound rest else none

/-- A string between three single quotes, behind the opening quotes. -/
def readLiteralLines (before : List Char) : List Char → Option (String × List Char)
  | '\'' :: '\'' :: '\'' :: rest => some (closeLines '\'' before rest)
  | '\r' :: '\n' :: rest => readLiteralLines ('\n' :: '\r' :: before) rest
  | c :: rest => if c = '\n' || isPlain c then readLiteralLines (c :: before) rest else none
  | [] => none

/-- What follows a line break directly behind the opening of a string on several lines. -/
def skipFirstBreak (text : List Char) : List Char := (dropBreak text).getD text

/-- A string on one line. -/
def readShort : List Char → Option (String × List Char)
  | '"' :: rest => readQuoted [] rest.length rest
  | '\'' :: rest => readLiteral rest
  | _ => none

/-- A string of any form. -/
def readText : List Char → Option (String × List Char)
  | '"' :: '"' :: '"' :: rest =>
    readQuotedLines [] rest.length (skipFirstBreak rest)
  | '\'' :: '\'' :: '\'' :: rest => readLiteralLines [] (skipFirstBreak rest)
  | text => readShort text

/-- Whether a character may stand in a key without quotes. -/
def isKeyChar (c : Char) : Bool := c.isAlphanum || c = '_' || c = '-'

/-- A name of a key. -/
def readName (text : List Char) : Option (String × List Char) :=
  let word := text.takeWhile isKeyChar
  if word.isEmpty then readShort text else some (String.ofList word, text.drop word.length)

/-- The names of a key, with blanks around the points between them, and a bound on their
number. -/
def readNames : Nat → List Char → Option (List String × List Char)
  | 0, _ => none
  | bound + 1, text =>
    match readName (skipBlanks text) with
    | none => none
    | some (name, rest) =>
      match skipBlanks rest with
      | '.' :: rest => (readNames bound rest).map fun (names, rest) => (name :: names, rest)
      | rest => some ([name], rest)

/-- The largest number of names of a key, and of lists and tables that a value is nested
in. -/
def depthLimit : Nat := 80

/-- A key. -/
def readKey (text : List Char) : Option (List String × List Char) :=
  readNames depthLimit text

end PresenceTracker.Toml
