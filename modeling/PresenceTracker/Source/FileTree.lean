/-!
# Trees of files

The files under one directory, each given by its path from there. A path is followed name by
name; two points lead back to the directory around, and no path leads out of the tree.
-/

namespace PresenceTracker

/-- The files under a directory: their paths and their texts. -/
structure FileTree where
  /-- The paths from the directory, and the texts. -/
  files : List (String × String) := []
  deriving DecidableEq, Repr

namespace FileTree

/-- The names of a path. Empty ones and single points lead nowhere else. -/
def namesOf (path : String) : List String :=
  (path.splitOn "/").filter fun name => name ≠ "" && name ≠ "."

/-- Whether names lead to a directory: the outermost one, or one with something inside. -/
def isDirectory (tree : FileTree) (place : List String) : Bool :=
  place.isEmpty || tree.files.any fun file =>
    let names := namesOf file.1
    place.isPrefixOf names && place.length < names.length

/-- The place that names lead to from a place; nothing if it is outside of the tree, or if
there is no directory to come back from. -/
def walk (tree : FileTree) : List String → List String → Option (List String)
  | place, [] => some place
  | place, name :: rest =>
    if name = ".." then
      if place.isEmpty || !tree.isDirectory place then none else tree.walk place.dropLast rest
    else tree.walk (place ++ [name]) rest

/-- Whether a path can only be that of a directory, or begins outside of the tree. -/
def namesNoFile (path : String) : Bool :=
  path.startsWith "/" || path.endsWith "/" || path.endsWith "/."

/-- The text of the file with a path. -/
def read? (tree : FileTree) (path : String) : Option String :=
  if namesNoFile path then none
  else
    match tree.walk [] (namesOf path) with
    | some place => (tree.files.find? fun file => namesOf file.1 = place).map Prod.snd
    | none => none

end FileTree

end PresenceTracker
