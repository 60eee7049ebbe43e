import ZoneConsole.Command.Invoke

/-!
# The program

Gathers what an invocation finds, runs it, and carries out what it has come to: what
it prints, the file of settings it leaves, and its exit code. There are no sockets
here, so a request reaches no server and fails as one that cannot connect.
-/

namespace ZoneConsole

/-- The variables that the text of an environment lists, one after the other. -/
def readEnvironment (text : String) : Environment :=
  (text.splitOn "\x00").filterMap fun entry =>
    match entry.splitOn "=" with
    | name :: value :: more => some (name, "=".intercalate (value :: more))
    | _ => none

/-- The directory of the settings. -/
def settingsDirectory (env : Environment) : String :=
  match (lookup? "XDG_CONFIG_HOME" env).filter (·.startsWith "/") with
  | some directory => directory ++ "/qubes-air"
  | none => (lookup? "HOME" env).getD "." ++ "/.config/qubes-air"

/-- The text of a file, if it can be read. -/
def fileText? (path : String) : IO (Option String) :=
  try return some (← IO.FS.readFile ⟨path⟩) catch _ => return none

/-- What stands where the file of settings belongs. -/
def settingsFile (directory : String) : IO SettingsFile := do
  if (← fileText? directory).isSome then return .blocked
  match ← fileText? (settingsPath directory) with
  | some text => return .present text
  | none => return .absent

/-- Leaves a file of settings. -/
def leave (directory : String) : SettingsFile → IO Unit
  | .present text => do
    IO.FS.createDirAll ⟨directory⟩
    IO.FS.writeFile ⟨settingsPath directory⟩ text
  | .absent | .blocked => return ()

/-- Carries out what an invocation has come to. -/
def conclude (around : Surroundings) : Ending → IO Unit
  | .refused e => IO.eprintln e.message
  | .ran failure t => do
    IO.print t.out
    IO.eprint t.notes
    if t.file ≠ around.file then leave around.directory t.file
    if let some f := failure then
      IO.eprintln f.message
      if let some help := f.help then IO.eprintln help

end ZoneConsole

open ZoneConsole in
/-- Runs the command that the words name. -/
def main (words : List String) : IO UInt32 := do
  let env := readEnvironment ((← fileText? "/proc/self/environ").getD "")
  let directory := settingsDirectory env
  let around : Surroundings := ⟨env, directory, ← settingsFile directory, .down⟩
  let ending := invoke around words
  conclude around ending
  return ending.exitCode.toUInt32
