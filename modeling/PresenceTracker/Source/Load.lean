import PresenceTracker.Source.Environment
import PresenceTracker.Source.File
import PresenceTracker.Source.Merge

/-!
# Loading settings

The settings of the program are merged from three sources: a file of defaults, a file for
the profile in use, and the environment. They come into force if they can be read and the
settings of the status engine are in their ranges.
-/

namespace PresenceTracker.AppSettings

/-- A source cannot be read. -/
def unreadable (detail : String) : Failure :=
  .plain .configuration ("Failed to build config: " ++ detail)

/-- The merged sources do not give the settings. -/
def unfit (detail : String) : Failure :=
  .plain .configuration ("Failed to deserialize config: " ++ detail)

/-- The name of the file of defaults and of the file for a profile. -/
def sourceNames (directory profile : String) : List String :=
  [directory ++ "/default", directory ++ "/" ++ profile]

/-- The files that settings may be read from. -/
def sourceFiles (directory profile : String) : List SourceFile :=
  (sourceNames directory profile).flatMap SourceFile.candidates

/-- The entries of a source file. -/
def readSource (read? : String → Option String) (name : String) :
    Except Failure (List (String × SourceValue)) :=
  match SourceFile.entries? read? name with
  | some entries => .ok entries
  | none => .error (unreadable ("malformed file " ++ name))

/-- The settings that merged sources give. -/
def ofSources (sources : List (List (String × SourceValue))) : Except Failure AppSettings :=
  match SettingsTree.app (SourceValue.merge sources) with
  | .error detail => .error (unfit detail)
  | .ok settings =>
    match settings.status.validate with
    | .error failure => .error failure
    | .ok () => .ok settings

/-- Loads the settings for a profile from files in a directory and from the environment. -/
def load (read? : String → Option String) (directory profile : String)
    (bindings : List (String × String)) : Except Failure AppSettings := do
  let files ← (sourceNames directory profile).mapM (readSource read?)
  ofSources (files ++ [Environment.entries bindings])

end PresenceTracker.AppSettings
