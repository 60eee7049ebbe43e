import ZoneConsole.Command.Failure
import ZoneConsole.Command.Line
import ZoneConsole.Command.Machine
import ZoneConsole.Report
import ZoneConsole.Settings.Choice
import ZoneConsole.Settings.File

/-!
# Runs of commands

A run is a function from what was there before to what is there after: what has been
printed, the file of settings, and the link to the server with the requests that
were sent over it. A run ends well or with a failure.

The operations of runs are here: to print, to notify, to exchange with a server, to
write settings. Commands on zones, qubes and settings are made of them.
-/

namespace ZoneConsole

/-- What a run has done so far. -/
structure Transcript where
  out : String
  notes : String
  file : SettingsFile
  link : Link

/-- A run: it changes a transcript and ends with a value or a failure. -/
abbrev Run (α : Type) := ExceptT Failure (StateM Transcript) α

namespace Run

/-- Writes a text to the output. -/
def write (text : String) : Run Unit := modify fun t => { t with out := t.out ++ text }

/-- Prints a line. -/
def print (line : String) : Run Unit :=
  modify fun t => { t with out := t.out ++ line ++ "\n" }

/-- Writes a line beside the output. -/
def note (line : String) : Run Unit :=
  modify fun t => { t with notes := t.notes ++ line ++ "\n" }

/-- Writes a line beside the output, unless that is unwanted. -/
def notify (o : GlobalOptions) (line : String) : Run Unit := if o.quiet then pure () else note line

/-- Prints a result, unless that is unwanted or there is nothing in it. -/
def report (o : GlobalOptions) (text : String) : Run Unit :=
  if o.quiet || text.isEmpty then pure () else print text

/-- Goes on with a value, or fails with what an error is. -/
def orFail (f : ε → Failure) : Except ε α → Run α
  | .ok a => pure a
  | .error e => throw (f e)

/-- Exchanges with the server. -/
def exchange (f : ApiError → Failure) (e : Exchange α) : Run α := do
  let t ← get
  let (result, link) := e.run t.link
  set { t with link }
  orFail f result

/-- Loads a store. -/
def load [Resource E] (client : Client) (store : Store E) (options : ListOptions) :
    Run (Store E) := do
  let t ← get
  let (store, _, link) := store.perform client (.load options) t.link
  set { t with link }
  match store.state.error with
  | some message => throw (.loadFailed (Resource.collection E) message)
  | none => return store

/-- Loads the entities of a collection, or those of them that a view of it shows. -/
def entities [Resource E] (client : Client) (store : Store E) (options : ListOptions)
    (view : Option (Collection E → List (Shared E))) : Run (List E) :=
  match view with
  | none => do
    let store ← load client store options
    return store.state.items.map (·.value)
  | some project => do
    let store ← load client (store.step (.addView "shown" project)).1 options
    match (store.step (.viewValue "shown")).2 with
    | .view items => return items.map (·.value)
    | _ => return []

/-- Is the action wanted? It may have been confirmed beforehand; otherwise the user is asked,
    and if there is none it is a failure. -/
def confirm (m : Machine) (o : GlobalOptions) (action : String) : Run Bool :=
  if o.yes then pure true
  else
    match m.user with
    | some user => pure (user.agrees action)
    | none => throw (.unconfirmed action)

/-- The settings as they are. -/
def settings (env : Environment) : Run Settings := do
  return Settings.loadOrUsual (← get).file.text? env

/-- Writes settings. -/
def save (m : Machine) (s : Settings) : Run Unit := do
  let t ← get
  match s.save t.file (m.arrange s.profiles) with
  | .ok file => set { t with file }
  | .error e => throw (.ofSettings e)

end Run

end ZoneConsole
