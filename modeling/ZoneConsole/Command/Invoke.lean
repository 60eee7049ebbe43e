import ZoneConsole.Command.Entities
import ZoneConsole.Command.Settings

/-!
# Invocations

What an invocation does from its words to its end: a command line that cannot be
read does nothing at all, and any other one runs its command.

**`invoke`** is the whole of it.
-/

namespace ZoneConsole

/-- What an invocation finds: the environment, the directory and the file of settings, and
    what becomes of requests. -/
structure Surroundings where
  env : Environment
  directory : String
  file : SettingsFile
  network : Network

/-- How an invocation ends: its command line is refused, or its command has run. -/
inductive Ending
  | refused (error : UsageError)
  | ran (failure : Option Failure) (transcript : Transcript)

/-- The exit code of an ending. -/
def Ending.exitCode : Ending → Nat
  | refused e => e.exitCode
  | ran none _ => 0
  | ran (some f) _ => f.exitCode

namespace Run

/-- The console that the settings and the options make. -/
def console (env : Environment) (o : GlobalOptions) : Run Console := do
  let s ← settings env
  let config ← orFail id (s.resolve o)
  orFail .ofApi (Console.make config)

/-- Runs a command. -/
def command (m : Machine) (around : Surroundings) (o : GlobalOptions) : Command → Run Unit
  | .settings c => settingsCommand m o around.env around.directory c
  | .completions shell => write (m.completion shell)
  | .zones c => do zones m o (← console around.env o) c
  | .qubes c => do qubes m o (← console around.env o) c
  | .health => do health o (← console around.env o)
  | .status => do status o (← console around.env o)

end Run

/-- The options on a machine: colours are on or off, as the machine and the environment want it
    if they do not say. -/
def GlobalOptions.on (o : GlobalOptions) (m : Machine) (env : Environment) : GlobalOptions :=
  { o with color := o.color.settled (m.display && (lookup? "NO_COLOR" env).isNone) }

/-- Runs the command of an invocation. -/
def Invocation.run (i : Invocation) (around : Surroundings) (m : Machine) : Ending :=
  match (Run.command m around (i.options.on m around.env) i.command).run.run
      ⟨"", "", around.file, .ofNetwork around.network⟩ with
  | (.ok (), t) => .ran none t
  | (.error f, t) => .ran (some f) t

/-- Reads the words of a command line and runs its command. -/
def invoke (around : Surroundings) (words : List String) (machine : Machine := .usual) : Ending :=
  match Invocation.read around.env words with
  | .error e => .refused e
  | .ok i => i.run around machine

end ZoneConsole
