import QueryScope.CommandLine.Execution
import QueryScope.Settings.Directory

/-!
# The program

Files are read before a command is executed and written after it; in between nothing depends on the
outside. A single dash for a path stands for the standard input.
-/

namespace QueryScope.CommandLine

/-- How the program is called. -/
def usage : String :=
  unlines [
    "usage: query-scope [--config-dir DIR] [-v] COMMAND",
    "",
    "  decode --kind KIND [--best-effort[=BOOL]] [--pretty[=BOOL]] [--emit EMISSION] FILE",
    "  plan [--show-layout[=BOOL]] [--indent COLUMNS] [--scans] FILE",
    "  format-expr [--param LITERAL]... FILE",
    "  prefs show",
    "  prefs set [--best-effort BOOL] [--pretty BOOL] [--show-layout BOOL] [--indent COLUMNS]"]

/-- The text of a file, or why there is none. -/
def readFile (path : String) : IO (Except String String) := do
  try
    return .ok (← IO.FS.readFile path)
  catch error =>
    return .error (toString error)

/-- The files that a command may read. -/
def readInputs (command : Command) : IO Inputs := do
  match command.input? with
  | none => return fun _ => .error FileName.absence
  | some input =>
    let text ← readFile (if input = "-" then "/dev/stdin" else input)
    return fun path => if path = input then text else .error FileName.absence

/-- The directory for settings, unless none is known or it cannot be made. -/
def settingsDirectory? (chosen : Option String) : IO (Option String) := do
  match chosen <|> (← IO.getEnv "HOME").map (· ++ "/.config/query-scope") with
  | none => return none
  | some path =>
    try
      IO.FS.createDirAll path
      return some path
    catch _ =>
      return none

/-- The settings in a directory that a command may read. -/
def readSettings (directory : String) : IO Directory := do
  let name := Directory.fileName preferencesKey
  match ← readFile (directory ++ "/" ++ name) with
  | .ok text => return ⟨[(name, text)]⟩
  | .error _ => return ⟨[]⟩

/-- Bring a directory from one state of its settings to the next. -/
def writeSettings (directory : String) (before after : Directory) : IO Unit := do
  for (name, text) in after.files do
    if textUnder? name before.files ≠ some text then
      let staging := directory ++ "/" ++ FileName.withExtension name "json.tmp"
      IO.FS.writeFile staging text
      IO.FS.rename staging (directory ++ "/" ++ name)

/-- Show why a command fails. -/
def reportError (error : CommandError) : IO UInt32 := do
  IO.eprintln ("Error: " ++ error.message)
  return 1

/-- Write an answer and tell how the command ended. -/
def report (answer : Answer) : IO UInt32 := do
  IO.print answer.text
  match answer.ending with
  | .done => return 0
  | .failed error => reportError error
  | .givenUp =>
    IO.eprintln "Given up: a number or a text gets beyond its bounds"
    return 101

/-- Execute a command with the files that it uses. -/
def Invocation.run (invocation : Invocation) : IO UInt32 := do
  let inputs ← readInputs invocation.command
  let directory? ← settingsDirectory? invocation.configDirectory
  let before ← directory?.mapM readSettings
  let (answer, after) := invocation.command.execute inputs before
  try
    if let (some directory, some before, some after) := (directory?, before, after) then
      writeSettings directory before after
    report answer
  catch error =>
    reportError (.saving (.io (toString error)))

end QueryScope.CommandLine

open QueryScope.CommandLine in
/-- Read the command line and execute its command. -/
def main (arguments : List String) : IO UInt32 := do
  match Invocation.parse? arguments with
  | some invocation => invocation.run
  | none =>
    IO.eprint usage
    return 2
