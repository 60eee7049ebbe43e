import ZoneConsole.Console

/-!
# Sessions with a console

A console in use over a link, with the actions that were begun and wait for their
reply, each under a name.
-/

namespace ZoneConsole

/-- A console in use. -/
structure ConsoleSession where
  console : Console
  link : Link
  waiting : List (String × Console.Pending)

namespace ConsoleSession

/-- A console that is put to use over a network. -/
def ofConsole (console : Console) (network : Network) : ConsoleSession :=
  ⟨console, .ofNetwork network, []⟩

/-- Performs an action at once. -/
def perform (s : ConsoleSession) (action : Action) : ConsoleSession × ActionAnswer :=
  let (console, answer, link) := s.console.perform action s.link
  ({ s with console, link }, answer)

/-- Begins an action; one that waits is held under a name, in place of another of that
    name, and its request is listed. -/
def begin (s : ConsoleSession) (name : String) (action : Action) :
    ConsoleSession × Option ActionAnswer :=
  match s.console.begin action s.link.network with
  | (console, .inl answer) => ({ s with console }, some answer)
  | (console, .inr pending) =>
    ({ console
       link := { s.link with requests := s.link.requests ++ [pending.request.sent] }
       waiting := put name pending s.waiting }, none)

/-- Finishes the action held under a name with a reply, if there is one. -/
def finish (s : ConsoleSession) (name : String) (reply : Reply) :
    ConsoleSession × Option ActionAnswer :=
  match lookup? name s.waiting with
  | none => (s, none)
  | some pending =>
    let (console, answer, link) := s.console.finish pending reply s.link
    (⟨console, link, without name s.waiting⟩, some answer)

end ConsoleSession

end ZoneConsole
