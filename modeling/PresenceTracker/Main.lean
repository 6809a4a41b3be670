import PresenceTracker.Launch.Start

/-!
# The program

Reads the command line, the environment and the files of settings, starts, and writes what
the start reports.
-/

namespace PresenceTracker.Main

/-- The names and values of the environment, given as the system lists them. -/
def variablesOf (listing : ByteArray) : List (String × String) :=
  let text := (String.fromUTF8? listing).getD ""
  (text.splitOn "\x00").filterMap fun binding =>
    (Text.splitFirst ['='] binding.toList).map fun (name, value) =>
      (String.ofList name, String.ofList value)

/-- The environment of the program. -/
def environment : IO (List (String × String)) := do
  return variablesOf (← IO.FS.readBinFile "/proc/self/environ")

/-- The text of a file, if there is one. A file that is no text is given as a text that no
form of settings admits. -/
def readText? (path : String) : IO (Option String) := do
  try
    let content ← IO.FS.readBinFile path
    return some ((String.fromUTF8? content).getD "\x00")
  catch _ => return none

/-- The files of settings that are there, by path. -/
def settingsFiles (options : LaunchOptions) : IO (List (String × String)) := do
  let mut found : List (String × String) := []
  for file in AppSettings.sourceFiles options.directory options.profile do
    match ← readText? file.path with
    | some text => found := found ++ [(file.path, text)]
    | none => pure ()
  return found

/-- Writes what a start reports. -/
def write (report : LaunchReport) : IO Unit := do
  let output ← IO.getStdout
  let errors ← IO.getStderr
  output.putStr report.answer
  for entry in report.log do
    output.putStrLn <|
      match report.format with
      | .json => entry.jsonLine
      | .pretty => entry.plainLine
  for complaint in report.complaints do
    errors.putStrLn complaint

end PresenceTracker.Main

open PresenceTracker in
/-- Starts the program and ends with its exit code. -/
def main (arguments : List String) : IO UInt32 := do
  let bindings ← Main.environment
  let invocation := Invocation.ofArguments [] arguments
  let files ← match invocation with
    | .start given => Main.settingsFiles (.ofGiven given bindings)
    | _ => pure []
  let report := Launch.run (files.lookup ·) bindings invocation
  Main.write report
  return report.exitCode.toUInt32
