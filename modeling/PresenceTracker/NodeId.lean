import PresenceTracker.Text

/-!
# Node identifiers

A node is known to the others by 128 bits, held here as 32 hexadecimal digits. The
written form is hyphenated after the eighth, twelfth, sixteenth and twentieth digit;
readers also take the bare digits, the hyphenated form in braces and the hyphenated
form as a URN, each in letters of either case.
-/

namespace PresenceTracker

/-- The identifier of a node: 32 hexadecimal digits. -/
structure NodeId where
  /-- The digits, the most significant first. -/
  digits : Vector (Fin 16) 32
  deriving DecidableEq

namespace NodeId

/-- The lengths of the groups between the hyphens. -/
def groups : List Nat := [8, 4, 4, 4, 12]

/-- The digits of a text with hyphens between groups of the given lengths. -/
def readGroups? : List Nat → List Char → Option (List (Fin 16))
  | [], [] => some []
  | [], _ :: _ => none
  | [last], text => if text.length = last then text.mapM Text.hexValue? else none
  | size :: rest, text => do
    let group ← (text.take size).mapM Text.hexValue?
    match text.drop size with
    | '-' :: more => (group ++ ·) <$> readGroups? rest more
    | _ => none

/-- The identifier with these digits, if there are 32 of them. -/
def ofDigits? (digits : List (Fin 16)) : Option NodeId :=
  if h : digits.length = 32 then some ⟨⟨digits.toArray, by simpa using h⟩⟩ else none

/-- The text in front of the hyphenated form in a URN. -/
def urnHead : String := "urn:uuid:"

/-- The hyphenated form inside braces or behind the URN head; other texts are left as
they are. -/
def unwrap (text : List Char) : List Char :=
  if text.length = 38 && text.head? = some '\x7b' && text.getLast? = some '\x7d' then
    (text.drop 1).dropLast
  else if text.length = 45 && (text.take 9).map Char.toLower = urnHead.toList then text.drop 9
  else text

/-- The identifier that a text stands for. -/
def parse? (text : String) : Option NodeId :=
  let chars := text.toList
  if chars.length = 32 then (chars.mapM Text.hexValue?).bind ofDigits?
  else (readGroups? groups (unwrap chars)).bind ofDigits?

/-- Digits with hyphens between groups of the given lengths. -/
def writeGroups : List Nat → List (Fin 16) → List Char
  | [], _ => []
  | [_], digits => digits.map Text.hexDigit
  | size :: rest, digits =>
    (digits.take size).map Text.hexDigit ++ '-' :: writeGroups rest (digits.drop size)

/-- The hyphenated form, in small letters. -/
def text (node : NodeId) : String := String.ofList (writeGroups groups node.digits.toList)

end NodeId

end PresenceTracker
