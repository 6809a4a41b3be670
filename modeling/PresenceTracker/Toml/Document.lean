import PresenceTracker.Toml.Scalar
import PresenceTracker.Toml.Table
import PresenceTracker.Toml.Text

/-!
# TOML documents

A document is a row of statements: headers that open tables, and keys with values for the
table that was opened last. Its value is the table that results from all of them.
-/

namespace PresenceTracker.Toml

/-- The table that has these entries, given by keys and values. -/
def inlineTable? (pairs : List (List String × SourceValue)) : Option SourceValue :=
  (pairs.foldlM (fun entries pair => Entries.add pair.2 pair.1 entries) []).map fun entries =>
    .table (Entries.values entries)

mutual

/-- A value, with a bound on the steps taken and on how deep values are nested. -/
def readValue : Nat → Nat → List Char → Option (SourceValue × List Char)
  | 0, _, _ => none
  | bound + 1, depth, text =>
    match depth, text with
    | 0, '[' :: _ => none
    | 0, '{' :: _ => none
    | depth + 1, '[' :: rest =>
      (readItems bound depth (skipGap false rest)).map fun (items, rest) => (.list items, rest)
    | depth + 1, '{' :: rest =>
      match readPairs bound depth (skipGap false rest) with
      | some (pairs, rest) => (inlineTable? pairs).map (·, rest)
      | none => none
    | _, text =>
      match readText text with
      | some (found, rest) => some (.text found, rest)
      | none =>
        let (word, rest) := readWord text
        (word? word).map (·, rest)

/-- The items of a list up to its closing bracket, which is taken too. -/
def readItems : Nat → Nat → List Char → Option (List SourceValue × List Char)
  | 0, _, _ => none
  | _, _, ']' :: rest => some ([], rest)
  | bound + 1, depth, text =>
    match readValue bound depth text with
    | none => none
    | some (item, rest) =>
      match skipGap false rest with
      | ',' :: rest =>
        (readItems bound depth (skipGap false rest)).map fun (items, rest) => (item :: items, rest)
      | ']' :: rest => some ([item], rest)
      | _ => none

/-- The keys and values of a table in braces up to the closing one, which is taken too. -/
def readPairs : Nat → Nat → List Char → Option (List (List String × SourceValue) × List Char)
  | 0, _, _ => none
  | _, _, '}' :: rest => some ([], rest)
  | bound + 1, depth, text =>
    match readPair bound depth text with
    | none => none
    | some (pair, rest) =>
      match skipGap false rest with
      | ',' :: rest =>
        (readPairs bound depth (skipGap false rest)).map fun (pairs, rest) => (pair :: pairs, rest)
      | '}' :: rest => some ([pair], rest)
      | _ => none

/-- A key and its value between braces, with gaps around the sign between them. -/
def readPair : Nat → Nat → List Char → Option ((List String × SourceValue) × List Char)
  | 0, _, _ => none
  | bound + 1, depth, text =>
    match readKey text with
    | none => none
    | some (key, rest) =>
      match skipGap false rest with
      | '=' :: rest =>
        (readValue bound depth (skipGap false rest)).map fun (value, rest) => ((key, value), rest)
      | _ => none

end

/-- A statement of a document. -/
inductive Statement where
  /-- A key and its value. -/
  | entry (key : List String) (value : SourceValue)
  /-- A header that opens a table. -/
  | table (path : List String)
  /-- A header that opens one more table of a row. -/
  | row (path : List String)

/-- A statement in front of a text. No step of a reader leaves more to read, and of four
steps at least one takes a character. -/
def readStatement : List Char → Option (Statement × List Char)
  | '[' :: '[' :: text =>
    match readKey text with
    | some (path, ']' :: ']' :: rest) => some (.row path, rest)
    | _ => none
  | '[' :: text =>
    match readKey text with
    | some (path, ']' :: rest) => some (.table path, rest)
    | _ => none
  | text =>
    match readKey text with
    | some (key, '=' :: rest) =>
      (readValue (4 * rest.length + 4) depthLimit (skipBlanks rest)).map fun (value, rest) =>
        (.entry key value, rest)
    | _ => none

/-- The statements of a document, each on lines of its own, with a bound on their number. -/
def readStatements : Nat → List Char → Option (List Statement)
  | 0, _ => none
  | bound + 1, text =>
    match skipGap false text with
    | [] => some []
    | text =>
      match readStatement text with
      | none => none
      | some (statement, rest) =>
        match endLine rest with
        | none => none
        | some rest => (readStatements bound rest).map (statement :: ·)

/-- A document that has been read in part: its outermost table, and the path of the table
that is open. -/
structure Progress where
  /-- The outermost table. -/
  entries : Entries := []
  /-- The path of the table that is open; empty for the outermost one. -/
  path : List String := []

/-- The document with one more statement. -/
def Progress.next (progress : Progress) : Statement → Option Progress
  | .entry key value =>
    if progress.path.isEmpty then
      (Entries.add value key progress.entries).map fun entries => { progress with entries }
    else
      (Entries.change (Node.added key value) progress.path progress.entries).map fun entries =>
        { progress with entries }
  | .table path => (Entries.change Node.opened path progress.entries).map (⟨·, path⟩)
  | .row path => (Entries.change Node.continued path progress.entries).map (⟨·, path⟩)

/-- The entries of the table that a text stands for, if it is a document. A mark of the byte
order may stand in front. -/
def parse? (text : String) : Option (List (String × SourceValue)) :=
  let body := match text.toList with
    | '\uFEFF' :: rest => rest
    | body => body
  match readStatements (body.length + 1) body with
  | none => none
  | some statements =>
    (statements.foldlM Progress.next {}).map fun progress => Entries.values progress.entries

end PresenceTracker.Toml
