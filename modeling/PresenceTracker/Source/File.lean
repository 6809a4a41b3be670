import PresenceTracker.Json.Value
import PresenceTracker.Source.Value
import PresenceTracker.Text
import PresenceTracker.Toml.Document

/-!
# Settings from files

A file of settings is named without its ending, which tells its form. A file that has
exactly the name comes first; it counts for nothing if its name tells no form.
-/

namespace PresenceTracker

mutual

/-- A JSON value as a value of a settings source. -/
def SourceValue.ofJson : JsonValue → SourceValue
  | .null => .nil
  | .bool value => .truth value
  | .number (.integer value) => .integer value
  | .number (.float negative magnitude) => .float (.finite negative magnitude)
  | .text value => .text value
  | .array items => .list (SourceValue.ofItems items)
  | .object members => .table (SourceValue.ofMembers members)

/-- The items of a JSON array as values of a settings source. -/
def SourceValue.ofItems : List JsonValue → List SourceValue
  | [] => []
  | item :: rest => SourceValue.ofJson item :: SourceValue.ofItems rest

/-- The members of a JSON object as entries of a settings source. -/
def SourceValue.ofMembers : List (String × JsonValue) → List (String × SourceValue)
  | [] => []
  | (key, value) :: rest => (key, SourceValue.ofJson value) :: SourceValue.ofMembers rest

end

/-- The form of a file of settings. -/
inductive SourceForm where
  /-- TOML text. -/
  | toml
  /-- JSON text that holds an object. -/
  | json
  deriving DecidableEq, Repr

namespace SourceForm

/-- Every form; a file of an earlier one hides files of later ones. -/
def all : List SourceForm := [toml, json]

/-- The ending of the names of files of a form. -/
def ending : SourceForm → String
  | toml => "toml"
  | json => "json"

/-- The form with a given ending. -/
def ofEnding? (text : String) : Option SourceForm := all.find? fun form => form.ending == text

/-- The entries that a text of a form holds; nothing if the text is malformed. -/
def entries? : SourceForm → String → Option (List (String × SourceValue))
  | toml, text => Toml.parse? text
  | json, text =>
    match JsonValue.parse (Bytes.ofText text) with
    | .ok (.object members) => some (SourceValue.ofMembers members)
    | _ => none

end SourceForm

/-- A file that may hold settings. -/
structure SourceFile where
  /-- The path of the file. -/
  path : String
  /-- The form that its name tells. -/
  form : Option SourceForm
  deriving DecidableEq, Repr

namespace SourceFile

/-- Drops the slashes, and the points for the same directory, from the end of a path given
in reverse. -/
def trimReversed : List Char → List Char
  | '/' :: rest => trimReversed rest
  | '.' :: '/' :: rest => trimReversed rest
  | path => path

/-- A path without what stands for the same directory at its end. -/
def trimmed (path : String) : String := String.ofList (trimReversed path.toList.reverse).reverse

/-- The last name of a path. -/
def lastName (path : String) : List Char :=
  match Text.splitLast '/' path.toList with
  | some (_, name) => name
  | none => path.toList

/-- The ending of a path: what stands behind the last point of its last name, if that point
is not where the name begins. -/
def ending? (path : String) : Option (List Char) :=
  match Text.splitLast '.' (lastName path) with
  | some (_ :: _, ending) => some ending
  | _ => none

/-- The form that a path tells. -/
def formOf? (path : String) : Option SourceForm :=
  (ending? path).bind fun ending => SourceForm.ofEnding? (String.ofList ending)

/-- A path with another ending in place of its own, if it has one. -/
def withEnding (path ending : String) : String :=
  match ending? path with
  | some own => (path.dropEnd (own.length + 1)).copy ++ "." ++ ending
  | none => path ++ "." ++ ending

/-- An ending behind which the ending of a name stays when it is replaced. -/
def spareEnding : String := ".dummy"

/-- The files that a name may stand for, in the order in which they are tried. The ending of
a form comes behind an ending that the name has; what stands for the same directory at the
end of a name is dropped only if the name has no ending. -/
def candidates (name : String) : List SourceFile :=
  let stem := trimmed name
  let exact : List SourceFile := if stem = name then [⟨name, formOf? name⟩] else []
  if ["", ".", ".."].contains (String.ofList (lastName stem)) then exact
  else
    let base := if (ending? stem).isSome then name ++ spareEnding else stem
    exact ++ SourceForm.all.map fun form => ⟨withEnding base form.ending, some form⟩

/-- A text without the mark of the byte order in front. -/
def unmarked (text : String) : String :=
  match text.toList with
  | '\uFEFF' :: rest => String.ofList rest
  | _ => text

/-- The entries that the file of a name holds, if there is one; nothing if it is
malformed. -/
def entries? (read? : String → Option String) (name : String) :
    Option (List (String × SourceValue)) :=
  let found := (candidates name).findSome? fun file => (read? file.path).map (file.form, ·)
  match found with
  | none => some []
  | some (none, _) => some []
  | some (some form, text) => form.entries? (unmarked text)

end SourceFile

end PresenceTracker
