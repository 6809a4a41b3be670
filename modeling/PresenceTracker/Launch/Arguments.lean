/-!
# The command line

The program takes two options, the directory of the settings and the profile in use. Each
may stand on the command line once, behind its name or joined to it by an equals sign; if it
does not, a variable of the environment gives it, and otherwise it has a default. Arguments
count from left to right: a wish for help or for the version is granted unless something
wrong stands in front of it.
-/

namespace PresenceTracker

/-- An option of the command line. -/
inductive LaunchOption where
  /-- The directory of the settings. -/
  | directory
  /-- The profile in use. -/
  | profile
  deriving DecidableEq, Repr

namespace LaunchOption

/-- Every option. -/
def all : List LaunchOption := [directory, profile]

/-- The name on the command line, behind two dashes. -/
def name : LaunchOption → String
  | directory => "config-dir"
  | profile => "env"

/-- The variable that gives the option if the command line does not. -/
def variableName : LaunchOption → String
  | directory => "STATUSHUB_CONFIG_DIR"
  | profile => "STATUSHUB_ENV"

/-- The value if nothing gives it. -/
def default : LaunchOption → String
  | directory => "config"
  | profile => "development"

/-- The option with a name. -/
def ofName? (text : String) : Option LaunchOption := all.find? fun option => option.name == text

end LaunchOption

/-- What a command line asks for. -/
inductive Invocation where
  /-- An explanation of the command line. -/
  | help
  /-- The version of the program. -/
  | version
  /-- Something that the program does not understand. -/
  | misuse
  /-- A start with the options that are given. -/
  | start (given : List (LaunchOption × String))
  deriving DecidableEq, Repr

namespace Invocation

/-- An argument that begins with two dashes. -/
inductive Long where
  /-- An option whose value is the next argument. -/
  | awaiting (option : LaunchOption)
  /-- An option with its value. -/
  | complete (option : LaunchOption) (value : String)
  /-- The wish for help. -/
  | help
  /-- The wish for the version. -/
  | version
  /-- Something unknown. -/
  | unknown

/-- The argument that stands behind two dashes. -/
def Long.ofText (text : List Char) : Long :=
  let name := String.ofList (text.takeWhile (· ≠ '='))
  match LaunchOption.ofName? name, text.drop name.length with
  | some option, [] => .awaiting option
  | some option, _ :: value => .complete option (String.ofList value)
  | none, [] =>
    if name = "help" then .help else if name = "version" then .version else .unknown
  | none, _ => .unknown

/-- Whether an argument may be the value of the option in front of it. A single dash may. -/
def isValue (argument : String) : Bool := argument = "-" || !argument.startsWith "-"

/-- Reads the arguments behind those that gave some options. -/
def ofArguments (given : List (LaunchOption × String)) : List String → Invocation
  | [] => start given
  | argument :: rest =>
    match argument.toList with
    | ['-', '-'] => if rest.isEmpty then start given else misuse
    | '-' :: '-' :: text =>
      match Long.ofText text, rest with
      | .help, _ => help
      | .version, _ => version
      | .unknown, _ => misuse
      | .complete option value, rest =>
        if (given.lookup option).isSome then misuse
        else ofArguments (given ++ [(option, value)]) rest
      | .awaiting _, [] => misuse
      | .awaiting option, value :: rest =>
        if (given.lookup option).isSome || !isValue value then misuse
        else ofArguments (given ++ [(option, value)]) rest
    | '-' :: 'h' :: _ => help
    | '-' :: 'V' :: _ => version
    | _ => misuse

end Invocation

/-- The options of a start. -/
structure LaunchOptions where
  /-- The directory of the settings. -/
  directory : String
  /-- The profile in use. -/
  profile : String
  deriving DecidableEq, Repr

namespace LaunchOptions

/-- The value of an option: from the command line, from the environment, or its default. -/
def value (given : List (LaunchOption × String)) (bindings : List (String × String))
    (option : LaunchOption) : String :=
  ((given.lookup option).or (bindings.lookup option.variableName)).getD option.default

/-- The options that a command line and an environment give. -/
def ofGiven (given : List (LaunchOption × String)) (bindings : List (String × String)) :
    LaunchOptions :=
  ⟨value given bindings .directory, value given bindings .profile⟩

end LaunchOptions

end PresenceTracker
