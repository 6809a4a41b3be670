import PresenceTracker.Source.Value

/-!
# Tables under construction

The tables of a TOML text are made by headers and by keys of several names, piece by piece.
How a table came to be decides whether more may be added to it: no name stands for two
things, a header opens a table once, and a key of several names adds to no table that a
header has opened.
-/

namespace PresenceTracker.Toml

/-- How a table came to be. -/
inductive Origin where
  /-- A header of its own opened it. -/
  | header
  /-- It lies on the way of a header to another table. -/
  | implied
  /-- A key of several names has passed through it, and no header has opened it. -/
  | dotted
  deriving DecidableEq, Repr

/-- What a name of a table stands for. -/
inductive Node where
  /-- A finished value. -/
  | leaf (value : SourceValue)
  /-- A table. -/
  | table (origin : Origin) (entries : List (String × Node))
  /-- Tables in a row, each opened by a header; the last one is under construction. -/
  | tables (before : List (List (String × Node))) (last : List (String × Node))

/-- A table under construction. -/
abbrev Entries := List (String × Node)

/-- Puts a node in the place of a name. -/
def Entries.put (name : String) (node : Node) : Entries → Entries
  | [] => [(name, node)]
  | (other, present) :: rest =>
    if other = name then (name, node) :: rest
    else (other, present) :: Entries.put name node rest

/-- Adds a value under a key. None of the tables on the way has been opened by a header, and
none can be opened by one afterwards. -/
def Entries.add (value : SourceValue) : List String → Entries → Option Entries
  | [], _ => none
  | [name], entries =>
    match entries.lookup name with
    | some _ => none
    | none => some (entries.put name (.leaf value))
  | name :: rest, entries =>
    match entries.lookup name with
    | none => (Entries.add value rest []).map fun inner => entries.put name (.table .dotted inner)
    | some (.table .header _) => none
    | some (.table _ inner) =>
      (Entries.add value rest inner).map fun inner => entries.put name (.table .dotted inner)
    | some (.tables before last) =>
      if rest.length = 1 then none
      else (Entries.add value rest last).map fun last => entries.put name (.tables before last)
    | some (.leaf _) => none

/-- Changes the node that the path of a header leads to. Tables on the way that are not
there are made. -/
def Entries.change (change : Option Node → Option Node) : List String → Entries → Option Entries
  | [], _ => none
  | [name], entries => (change (entries.lookup name)).map fun node => entries.put name node
  | name :: rest, entries =>
    match entries.lookup name with
    | none =>
      (Entries.change change rest []).map fun inner => entries.put name (.table .implied inner)
    | some (.table origin inner) =>
      (Entries.change change rest inner).map fun inner => entries.put name (.table origin inner)
    | some (.tables before last) =>
      (Entries.change change rest last).map fun last => entries.put name (.tables before last)
    | some (.leaf _) => none

/-- Opens a table: one that is new, or one that was only on the way of another header. -/
def Node.opened : Option Node → Option Node
  | none => some (.table .header [])
  | some (.table .implied inner) => some (.table .header inner)
  | some _ => none

/-- Opens one more table of a row. -/
def Node.continued : Option Node → Option Node
  | none => some (.tables [] [])
  | some (.tables before last) => some (.tables (before ++ [last]) [])
  | some _ => none

/-- Adds a value under a key of the table that is open. -/
def Node.added (key : List String) (value : SourceValue) : Option Node → Option Node
  | some (.table origin inner) => (Entries.add value key inner).map fun inner => .table origin inner
  | some (.tables before last) => (Entries.add value key last).map fun last => .tables before last
  | _ => none

mutual

/-- The value of a node. -/
def Node.value : Node → SourceValue
  | .leaf value => value
  | .table _ entries => .table (Entries.values entries)
  | .tables before last => .list (Entries.rows before ++ [.table (Entries.values last)])

/-- The values of the entries of a table. -/
def Entries.values : List (String × Node) → List (String × SourceValue)
  | [] => []
  | (name, node) :: rest => (name, node.value) :: Entries.values rest

/-- The values of tables in a row. -/
def Entries.rows : List (List (String × Node)) → List SourceValue
  | [] => []
  | row :: rest => .table (Entries.values row) :: Entries.rows rest

end

end PresenceTracker.Toml
