import ZoneConsole.Members
import ZoneConsole.Text.Blank
import ZoneConsole.Text.Digits

/-!
# Grammars of command lines

A command line names a command, group by group, and gives options and values on
the way. A `Param` is one option or one value by position; a `Grammar` says which
commands there are, what each takes, and how what it was given becomes a value.

**`ValueType.accepts`** says which texts a value may have, and **`UsageError`**
what can be wrong with a command line.
-/

namespace ZoneConsole

/-- What can be wrong with a command line, or what it asks for instead of a command. -/
inductive UsageError
  | invalidValue (param value : String)
  | unreadableValue (param value : String)
  | unknownArgument (argument : String)
  | unknownCommand (name : String)
  | missingArguments (params : List String)
  | conflict (param earlier : String)
  | surplusValue (param value : String)
  | nothingGiven
  | missingCommand (path : String)
  | help
  | version
  deriving DecidableEq, Repr

/-- The text that says what is wrong, or what was asked for. -/
def UsageError.message : UsageError → String
  | invalidValue p v | unreadableValue p v => "invalid value '" ++ v ++ "' for '" ++ p ++ "'"
  | unknownArgument a => "unexpected argument '" ++ a ++ "' found"
  | unknownCommand c => "unrecognized subcommand '" ++ c ++ "'"
  | missingArguments ps => "required arguments were not provided: " ++ ", ".intercalate ps
  | conflict p q => "the argument '" ++ p ++ "' cannot be used with '" ++ q ++ "'"
  | surplusValue p v => "unexpected value '" ++ v ++ "' for '" ++ p ++ "' found"
  | missingCommand path => "'" ++ path ++ "' requires a subcommand"
  | nothingGiven | help => "Usage: qubes-air [OPTIONS] <COMMAND>"
  | version => "qubes-air 0.1.0"

/-- The exit code: asking for help or for the version is no failure. -/
def UsageError.exitCode : UsageError → Nat
  | help | version => 0
  | _ => 2

namespace CommandLine

/-- A natural number below a bound, with or without a plus sign. -/
def natBelow? (bound : Nat) (s : String) : Option Nat :=
  let ds := match s.toList with
    | '+' :: r => r
    | r => r
  (Text.digits? ds).bind fun n => if n < bound then some n else none

/-- A natural number of 32 bits, with any sign that leaves it one. -/
def word32? (s : String) : Option Nat :=
  let (negative, ds) := Text.takeSign s.toList
  (Text.digits? ds).bind fun n =>
    if n < UInt32.size ∧ (negative = false ∨ n = 0) then some n else none

/-- A natural number of 64 bits. -/
def word64? (s : String) : Option Nat := natBelow? UInt64.size s

/-- The types of values: any text, numbers of two sizes, one of several words, and one of
    several names in any case of their letters. -/
inductive ValueType
  | text | word32 | word64
  | choice (words : List String)
  | named (names : List String)
  deriving DecidableEq, Repr

/-- May a value have the text? -/
def ValueType.accepts : ValueType → String → Bool
  | text, _ => true
  | word32, s => (word32? s).isSome
  | word64, s => (word64? s).isSome
  | choice words, s => words.contains s
  | named names, s => names.contains (Text.lower s)

/-- What a parameter is: a request for help or for the version, a flag, a flag that counts,
    or one that takes a value. -/
inductive ParamKind
  | help | version | flag | count
  | value (type : ValueType)
  deriving DecidableEq, Repr

/-- A parameter: its name, which is its long form if it is an option, its short form, the
    variable of the environment that gives its value if the command line does not, the
    value if neither does, and the parameters it cannot stand beside. -/
structure Param where
  name : String
  kind : ParamKind
  short : Option Char
  environment : Option String
  usual : Option String
  required : Bool
  against : List String
  deriving Repr

namespace Param

/-- A parameter of a kind. -/
def ofKind (name : String) (kind : ParamKind) : Param := ⟨name, kind, none, none, none, false, []⟩

/-- A flag. -/
def flag (name : String) : Param := ofKind name .flag

/-- A parameter with a value. -/
def value (name : String) (type : ValueType) : Param := ofKind name (.value type)

/-- The parameter with a short form. -/
def orShort (p : Param) (c : Char) : Param := { p with short := some c }

/-- The parameter with a variable of the environment. -/
def orVariable (p : Param) (name : String) : Param := { p with environment := some name }

/-- The parameter with a value if nothing gives one. -/
def orUsual (p : Param) (value : String) : Param := { p with usual := some value }

/-- The parameter, which has to be given. -/
def needed (p : Param) : Param := { p with required := true }

/-- The parameter, which cannot stand beside another one. -/
def notWith (p : Param) (name : String) : Param := { p with against := name :: p.against }

/-- Does the parameter take a value? -/
def takesValue (p : Param) : Bool :=
  match p.kind with
  | .value _ => true
  | _ => false

/-- The name of the value: in upper case, with underscores. -/
def valueName (p : Param) : String :=
  String.ofList (p.name.toList.map fun c => if c = '-' then '_' else c.toUpper)

/-- How an option is shown. -/
def shown (p : Param) : String :=
  if p.takesValue then "--" ++ p.name ++ " <" ++ p.valueName ++ ">" else "--" ++ p.name

/-- How a value by position is shown. -/
def shownByPosition (p : Param) : String := "<" ++ p.valueName ++ ">"

end Param

/-- Where a value comes from, the weakest source first. -/
inductive Source
  | usual | environment | commandLine
  deriving DecidableEq, Repr

/-- The strength of a source. -/
def Source.rank : Source → Nat
  | usual => 0
  | environment => 1
  | commandLine => 2

/-- A parameter that has a value, and the source of it. -/
structure Match where
  name : String
  source : Source
  value : String
  deriving DecidableEq, Repr

/-- What the parameters of a command were given. -/
abbrev Matches := List Match

namespace Matches

/-- The value of a parameter. -/
def value? (ms : Matches) (name : String) : Option String :=
  (ms.find? fun m => m.name = name).map (·.value)

/-- Is a flag set? -/
def flag (ms : Matches) (name : String) : Bool := ms.value? name = some "true"

/-- Was the parameter given, rather than left to what is usual? -/
def isGiven (ms : Matches) (name : String) : Bool :=
  ms.any fun m => m.name = name && m.source != .usual

/-- Matches joined with those of a command further in: the stronger source counts, and of
    two of one strength the inner one. -/
def join (outer inner : Matches) : Matches :=
  inner.map (fun m =>
    match outer.find? fun o => o.name = m.name with
    | some o => if m.source.rank < o.source.rank then o else m
    | none => m) ++
  outer.filter fun o => !inner.any fun m => m.name = o.name

end Matches

/-- The commands of a command line: a command of its own with options, values by position
    and the way to read them, or a group of commands. -/
inductive Grammar (α : Type)
  | command (name : String) (aliases : List String) (options positions : List Param)
      (read : Matches → Option α)
  | group (name : String) (aliases : List String) (commands : List (Grammar α))

namespace Grammar

/-- The name of a command or a group. -/
def name : Grammar α → String
  | command name _ _ _ _ | group name _ _ => name

/-- Is this the command of a name? -/
def answersTo (g : Grammar α) (word : String) : Bool :=
  match g with
  | command name aliases _ _ _ | group name aliases _ => name = word || aliases.contains word

/-- The options of a command. -/
def options : Grammar α → List Param
  | command _ _ options _ _ => options
  | group _ _ _ => []

/-- The values by position of a command. -/
def positions : Grammar α → List Param
  | command _ _ _ positions _ => positions
  | group _ _ _ => []

/-- The commands of a group. Each group has one that shows help. -/
def commands : Grammar α → List (Grammar α)
  | command _ _ _ _ _ => []
  | group _ _ commands => commands ++ [command "help" [] [] [] fun _ => none]

/-- Is this a group? -/
def isGroup : Grammar α → Bool
  | command _ _ _ _ _ => false
  | group _ _ _ => true

/-- The command that a word names. -/
def find? (g : Grammar α) (word : String) : Option (Grammar α) :=
  g.commands.find? (·.answersTo word)

/-- Follows words to the command that help is asked for. -/
def helpFor (g : Grammar α) : List String → UsageError
  | [] => .help
  | word :: rest =>
    match g.find? word with
    | some sub => sub.helpFor rest
    | none => .unknownCommand word

end Grammar

end CommandLine

end ZoneConsole
