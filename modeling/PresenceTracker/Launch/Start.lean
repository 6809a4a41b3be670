import PresenceTracker.Launch.Arguments
import PresenceTracker.Log.Filter
import PresenceTracker.MaskedAddress
import PresenceTracker.Source.Load
import PresenceTracker.Store.Call

/-!
# Starting the program

What a start does up to the connection to the database, and what it reports if there is
none: the settings are loaded, the log is set up as they say, and the connection is tried.
-/

namespace PresenceTracker

/-- What a start that came to an end leaves behind. -/
structure LaunchReport where
  /-- The exit code. -/
  exitCode : UInt8
  /-- What is written for whoever started the program. -/
  answer : String := ""
  /-- What is written about errors. -/
  complaints : List String := []
  /-- The form of the log. -/
  format : LogFormat := .json
  /-- The entries of the log that are shown. -/
  log : List LogEntry := []

namespace Launch

/-- The name of the program. -/
def programName : String := "statushub-server"

/-- The version of the program. -/
def version : String := "0.1.0"

/-- The variable that holds a filter for the log. -/
def filterVariable : String := "RUST_LOG"

/-- The part of the program that starts it. -/
def mainTarget : String := "statushub_server"

/-- The part of the program that connects to the database. -/
def databaseTarget : String := "statushub_database::connection"

/-- The explanation of an option. -/
def explain (option : LaunchOption) (placeholder text : String) : String :=
  "      --" ++ option.name ++ " <" ++ placeholder ++ ">  " ++ text ++ " [env: " ++
    option.variableName ++ "=] [default: " ++ option.default ++ "]\n"

/-- The usage of the command line. -/
def usage : String := "Usage: " ++ programName ++ " [OPTIONS]\n"

/-- The explanation of the command line. -/
def helpText : String :=
  "User presence tracking server\n\n" ++ usage ++ "\nOptions:\n" ++
    explain .directory "CONFIG_DIR"
      "Directory holding `default.toml` and the environment overlays" ++
    explain .profile "ENV" "Environment overlay to load on top of the defaults" ++
    "  -h, --help                     Print help\n" ++
    "  -V, --version                  Print version\n"

/-- The text that names the version. -/
def versionText : String := programName ++ " " ++ version ++ "\n"

/-- The log filter in force, and what is to be said about it. A variable of the environment
takes precedence over the settings if it holds a filter. -/
def filterOf (settings : LoggingSettings) (bindings : List (String × String)) :
    LogFilter × List String :=
  match (bindings.lookup filterVariable).bind LogFilter.parse? with
  | some filter => (filter, [])
  | none => LogFilter.parseSome settings.level

/-- What a start that fails to connect to the database says. -/
def entries (options : LaunchOptions) (settings : AppSettings) (failure : Failure) :
    List LogEntry :=
  let database := settings.database
  [{ level := .info, target := mainTarget, message := "Configuration loaded",
     values := [("config_dir", .text options.directory), ("env", .text options.profile)] },
   { level := .info, target := mainTarget, message := "Starting StatusHub v" ++ version },
   { level := .info, target := mainTarget, message := "Connecting to database..." },
   { level := .info, target := databaseTarget, message := "Connecting to PostgreSQL",
     values := [("url", .text (MaskedAddress.ofDatabase database.url)),
       ("max_connections", .number (.integer database.maxConnections.toNat)),
       ("min_connections", .number (.integer database.minConnections.toNat))] },
   { level := .error, target := mainTarget,
     message := "Server error: Database connection failed: " ++ failure.display }]

/-- A start whose settings cannot be loaded. -/
def withoutSettings (failure : Failure) : LaunchReport :=
  { exitCode := 1, complaints := ["Failed to load configuration: " ++ failure.display] }

/-- A start that fails to connect to the database. -/
def withoutDatabase (options : LaunchOptions) (settings : AppSettings)
    (bindings : List (String × String)) (failure : Failure) : LaunchReport :=
  let (filter, complaints) := filterOf settings.logging bindings
  { exitCode := 1
    complaints
    format := settings.logging.format
    log := (entries options settings failure).filter filter.shows }

/-- A start in an environment where no database can be used. -/
def start (read? : String → Option String) (bindings : List (String × String))
    (options : LaunchOptions) : LaunchReport :=
  match AppSettings.load read? options.directory options.profile bindings with
  | .error failure => withoutSettings failure
  | .ok settings =>
    withoutDatabase options settings bindings (Database.connectionFailure "unusable address")

/-- Runs a command line in an environment where no database can be used. -/
def run (read? : String → Option String) (bindings : List (String × String)) :
    Invocation → LaunchReport
  | .help => { exitCode := 0, answer := helpText }
  | .version => { exitCode := 0, answer := versionText }
  | .misuse => { exitCode := 2, complaints := ["error: unexpected argument\n\n" ++ usage] }
  | .start given => start read? bindings (.ofGiven given bindings)

end Launch

end PresenceTracker
