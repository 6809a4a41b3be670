import PresenceTracker.Source.Value

/-!
# Merging settings sources

A later source is laid over an earlier one: tables key by key, anything else as a whole. A
key at the top of a source may be a path, which names an entry further down: names between
points, and indices into lists in brackets. A key that is no path stands for itself.
-/

namespace PresenceTracker.SourceValue

/-- A step of a path. -/
inductive Step where
  /-- The entry of a table. -/
  | name (name : String)
  /-- The item of a list; a negative index counts from the end. -/
  | index (index : Int)
  deriving DecidableEq, Repr

/-- Whether a character may stand in a name of a path. -/
def isNameChar (c : Char) : Bool :=
  ('a' ≤ c && c ≤ 'z') || ('A' ≤ c && c ≤ 'Z') || ('0' ≤ c && c ≤ '9') || c = '_' || c = '-'

/-- A name in front of a text. -/
def readName (text : List Char) : Option (String × List Char) :=
  let name := text.takeWhile isNameChar
  if name.isEmpty then none else some (String.ofList name, text.drop name.length)

/-- Whether a character may stand around an index. -/
def isGap (c : Char) : Bool := c = ' ' || c = '\t'

/-- The index that digits stand for: an integer of 64 bits without a plus. -/
def index? (text : List Char) : Option Int :=
  if text.head? = some '+' then none
  else (Decimal.int? text).filter fun index =>
    Int64.minValue.toInt ≤ index && index ≤ Int64.maxValue.toInt

/-- An index and its closing bracket in front of a text. -/
def readIndex (text : List Char) : Option (Int × List Char) :=
  let inside := text.takeWhile fun c => c ≠ ']'
  let trimmed := (inside.dropWhile isGap).reverse.dropWhile isGap |>.reverse
  match text.drop inside.length with
  | ']' :: rest => (index? trimmed).map (·, rest)
  | _ => none

/-- The steps of a path behind its first name, with a bound on their number. -/
def readSteps : Nat → List Char → Option (List Step)
  | _, [] => some []
  | 0, _ => none
  | bound + 1, '.' :: rest => do
    let (name, rest) ← readName rest
    return .name name :: (← readSteps bound rest)
  | bound + 1, '[' :: rest => do
    let (index, rest) ← readIndex rest
    return .index index :: (← readSteps bound rest)
  | _, _ => none

/-- The path of a key at the top of a source. -/
def pathOf (key : String) : List Step :=
  let path? : Option (List Step) := do
    let (name, rest) ← readName key.toList
    return .name name :: (← readSteps rest.length rest)
  path?.getD [.name key]

/-- The entries of a table; none for anything else. -/
def entriesOf : SourceValue → List (String × SourceValue)
  | table entries => entries
  | _ => []

/-- The items of a list; none for anything else. -/
def itemsOf : SourceValue → List SourceValue
  | list items => items
  | _ => []

/-- Changes the entry of a name, which is made if need be. -/
def changeEntry (change : SourceValue → SourceValue) (name : String) :
    List (String × SourceValue) → List (String × SourceValue)
  | [] => [(name, change nil)]
  | (other, value) :: rest =>
    if other = name then (name, change value) :: rest
    else (other, value) :: changeEntry change name rest

/-- Changes the item at an index; a list that is too short is filled up. -/
def changeItem (change : SourceValue → SourceValue) (index : Int) (items : List SourceValue) :
    List SourceValue :=
  if 0 ≤ index then
    let place := index.toNat
    let filled := items ++ List.replicate (place + 1 - items.length) nil
    filled.modify place change
  else
    let back := index.natAbs
    if back ≤ items.length then items.modify (items.length - back) change
    else change nil :: (List.replicate (back - items.length - 1) nil ++ items)

/-- Changes what a path leads to. What is in the way is replaced. -/
def changeAt (change : SourceValue → SourceValue) : List Step → SourceValue → SourceValue
  | [], value => change value
  | .name name :: rest, value =>
    table (changeEntry (changeAt change rest) name (entriesOf value))
  | .index index :: rest, value =>
    list (changeItem (changeAt change rest) index (itemsOf value))

mutual

/-- Lays a value over another one. -/
def laidOver : SourceValue → SourceValue → SourceValue
  | table entries, below => table (laidOverEntries entries (entriesOf below))
  | value, _ => value

/-- Lays the entries of a table over those of another one. -/
def laidOverEntries : List (String × SourceValue) → List (String × SourceValue) →
    List (String × SourceValue)
  | [], below => below
  | (name, value) :: rest, below => laidOverEntries rest (changeEntry (laidOver value) name below)

end

/-- Lays the entry of a source over what has been merged so far. -/
def overlay (below : SourceValue) (entry : String × SourceValue) : SourceValue :=
  changeAt (laidOver entry.2) (pathOf entry.1) below

/-- Merges sources, each given by its entries; later ones win. -/
def merge (sources : List (List (String × SourceValue))) : SourceValue :=
  sources.foldl (fun below entries => entries.foldl overlay below) (table [])

end PresenceTracker.SourceValue
