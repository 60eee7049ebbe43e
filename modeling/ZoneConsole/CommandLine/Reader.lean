import ZoneConsole.CommandLine.Grammar

/-!
# Reading command lines

The words of a command line are read one after the other. An option may wait for
its value, which is checked only when the next parameter begins or the words are
at an end; a command further in is read to its end before that, so its errors come
first. Then come the variables of the environment, what is usual, and the checks of
the whole.

**`CommandLine.read`** is the value of the command that a command line names, with
the global options as they hold for all of it.
-/

namespace ZoneConsole.CommandLine

/-- How far the words of a command have been read: the parameter that has begun with the
    value it has met, whether its value may still come, whether the words are taken as
    values by position only, and how many of those there were. -/
structure Progress where
  begun : Option (Param × String × Option String)
  waiting : Bool
  plainOnly : Bool
  positions : Nat
  matched : Matches

namespace Progress

/-- Nothing has been read. -/
def start : Progress := ⟨none, false, false, 0, []⟩

/-- Records the value of a parameter. -/
def record (s : Progress) (p : Param) (source : Source) (value : String) : Progress :=
  { s with matched := s.matched.filter (·.name ≠ p.name) ++ [⟨p.name, source, value⟩] }

/-- Has the parameter a value? -/
def has (s : Progress) (p : Param) : Bool := s.matched.any (·.name = p.name)

/-- The error of a text that is no value of a type. -/
def refusal (type : ValueType) (shown value : String) : UsageError :=
  match type with
  | .choice _ => .invalidValue shown value
  | _ => .unreadableValue shown value

/-- Takes a parameter with the value that was given to it, if one was. -/
def take (s : Progress) (source : Source) (p : Param) (shown : String) (value : Option String) :
    Except UsageError Progress :=
  match p.kind with
  | .help => .error .help
  | .version => .error .version
  | .count =>
    let old := ((s.matched.value? p.name).bind (natBelow? 256)).getD 0
    .ok (s.record p source (String.ofList (Text.decimal (min (old + 1) 255))))
  | .flag =>
    if s.has p then .error (.conflict shown shown)
    else
      let value := value.getD "true"
      if ["true", "false"].contains value then .ok (s.record p source value)
      else .error (.invalidValue shown value)
  | .value type =>
    match value with
    | none => .error (.invalidValue shown "")
    | some value =>
      if s.has p then .error (.conflict shown shown)
      else if type.accepts value then .ok (s.record p source value)
      else .error (refusal type shown value)

/-- Takes the parameter that has begun, if one has. -/
def settle (s : Progress) : Except UsageError Progress :=
  match s.begun with
  | none => .ok s
  | some (p, shown, value) => { s with begun := none }.take .commandLine p shown value

/-- Takes a flag. -/
def takeFlag (s : Progress) (p : Param) : Except UsageError Progress :=
  match s.settle with
  | .error e => .error e
  | .ok s => { s with waiting := false }.take .commandLine p p.shown none

/-- Begins an option whose value may be attached to it. -/
def beginOption (s : Progress) (p : Param) (attached : Option String) :
    Except UsageError Progress :=
  match s.settle with
  | .error e => .error e
  | .ok s =>
    match attached with
    | some value => { s with waiting := false }.take .commandLine p p.shown (some value)
    | none => .ok { s with begun := some (p, p.shown, none), waiting := true }

/-- Reads an option by its long form, with a value after an equals sign. -/
def takeLong (params : List Param) (s : Progress) (body : List Char) :
    Except UsageError Progress :=
  let name := String.ofList (body.takeWhile (· ≠ '='))
  let attached := match body.dropWhile (· ≠ '=') with
    | _ :: value => some (String.ofList value)
    | [] => none
  match params.find? (·.name = name) with
  | none => .error (.unknownArgument ("--" ++ name))
  | some p =>
    if p.takesValue then s.beginOption p attached
    else
      match attached with
      | some value => .error (.surplusValue p.shown value)
      | none => s.takeFlag p

/-- Reads options by their short forms; what follows one that takes a value is its value. -/
def takeShort (params : List Param) : Progress → List Char → Except UsageError Progress
  | s, [] => .ok s
  | s, c :: rest =>
    match params.find? (·.short = some c) with
    | none => .error (.unknownArgument (String.ofList ['-', c]))
    | some p =>
      if p.takesValue then
        match rest with
        | [] => s.beginOption p none
        | '=' :: value => s.beginOption p (some (String.ofList value))
        | value => s.beginOption p (some (String.ofList value))
      else
        match s.takeFlag p with
        | .error e => .error e
        | .ok s => takeShort params s rest

/-- Reads a value by position. -/
def takePosition (g : Grammar α) (s : Progress) (word : String) : Except UsageError Progress :=
  match g.positions[s.positions]? with
  | some p =>
    match s.settle with
    | .error e => .error e
    | .ok s =>
      .ok { s with
        begun := some (p, p.shownByPosition, some word)
        waiting := false
        positions := s.positions + 1 }
  | none =>
    if g.isGroup && !(s.plainOnly && (g.find? word).isSome) then .error (.unknownCommand word)
    else .error (.unknownArgument word)

/-- Reads a word that names no command. -/
def takeWord (g : Grammar α) (params : List Param) (s : Progress) (word : String) :
    Except UsageError Progress :=
  if s.plainOnly then s.takePosition g word
  else
    match word.toList, s.begun with
    | ['-', '-'], _ => .ok { s with plainOnly := true }
    | '-' :: '-' :: body, _ => s.takeLong params body
    | '-' :: c :: rest, _ => s.takeShort params (c :: rest)
    | _, some (p, shown, _) =>
      if s.waiting then .ok { s with begun := some (p, shown, some word), waiting := false }
      else s.takePosition g word
    | _, none => s.takePosition g word

/-- The command that a word names, unless it is the value of an option. -/
def command? (g : Grammar α) (s : Progress) (word : String) : Option (Grammar α) :=
  if s.plainOnly || s.waiting then none else g.find? word

/-- Takes what the environment says about parameters that were not given. -/
def takeEnvironment (env : List (String × String)) : List Param → Progress →
    Except UsageError Progress
  | [], s => .ok s
  | p :: rest, s =>
    let value := if s.has p then none else p.environment.bind fun name => lookup? name env
    match value with
    | none => takeEnvironment env rest s
    | some value =>
      match s.take .environment p p.shown (some value) with
      | .error e => .error e
      | .ok s => takeEnvironment env rest s

/-- Takes what is usual for parameters that have no value. -/
def takeUsual (params : List Param) (s : Progress) : Progress :=
  params.foldl (fun s p =>
    match p.usual with
    | some value => if s.has p then s else s.record p .usual value
    | none => s) s

end Progress

/-- Can two parameters not stand beside each other? -/
def excludes (p q : Param) : Bool := p.against.contains q.name || q.against.contains p.name

/-- The first conflict among parameters, in the order in which they were given. -/
def conflict? (params : List Param) (ms : Matches) : Option UsageError :=
  let given := (ms.filter (·.source ≠ .usual)).filterMap fun m => params.find? (·.name = m.name)
  given.findSome? fun p =>
    (given.find? fun q => excludes p q).map fun q => .conflict p.shown q.shown

/-- What is missing: options first, then values by position. -/
def missing (g : Grammar α) (ms : Matches) : List String :=
  (g.options.filter fun p => p.required && !ms.isGiven p.name).map (·.shown) ++
  (g.positions.filter fun p => p.required && !ms.isGiven p.name).map (·.shownByPosition)

/-- Checks what a command was given. -/
def check (path : String) (g : Grammar α) (params : List Param) (ms : Matches) (inner : Bool) :
    Except UsageError Unit :=
  if g.isGroup && !inner then
    if ms.any (·.source ≠ .usual) then .error (.missingCommand path) else .error .nothingGiven
  else
    match conflict? params ms with
    | some e => .error e
    | none =>
      match missing g ms with
      | [] => .ok ()
      | names => .error (.missingArguments names)

/-- Every command has options for help and for the version. -/
def commonParams : List Param :=
  [(Param.ofKind "help" .help).orShort 'h', (Param.ofKind "version" .version).orShort 'V']

/-- The parameters of a command other than those by position. -/
def paramsOf (globals : List Param) (g : Grammar α) : List Param :=
  g.options ++ globals ++ commonParams

/-- Ends the reading of the words of a command. -/
def conclude (globals : List Param) (env : List (String × String)) (path : String)
    (g : Grammar α) (s : Progress) (inner : Bool) : Except UsageError Matches := do
  let params := paramsOf globals g
  let s ← s.settle
  let s ← s.takeEnvironment env params
  let s := s.takeUsual params
  check path g params s.matched inner
  return s.matched

/-- Reads words for a command, and gives its value with the global options. -/
def readFrom (globals : List Param) (env : List (String × String)) :
    String → Grammar α → Progress → List String → Except UsageError (α × Matches)
  | path, g, s, [] =>
    match conclude globals env path g s false with
    | .error e => .error e
    | .ok ms =>
      match g with
      | .command _ _ _ _ read =>
        match read ms with
        | some a => .ok (a, ms)
        | none => .error .nothingGiven
      | .group _ _ _ => .error (.missingCommand path)
  | path, g, s, word :: rest =>
    match s.command? g word with
    | some sub =>
      if sub.name = "help" then .error (g.helpFor rest)
      else
        match readFrom globals env (path ++ " " ++ sub.name) sub .start rest with
        | .error e => .error e
        | .ok (a, inner) =>
          match conclude globals env path g s true with
          | .error e => .error e
          | .ok outer => .ok (a, outer.join inner)
    | none =>
      match s.takeWord g (paramsOf globals g) word with
      | .error e => .error e
      | .ok s => readFrom globals env path g s rest

/-- Reads the words of a command line. -/
def read (globals : List Param) (env : List (String × String)) (g : Grammar α)
    (words : List String) : Except UsageError (α × Matches) :=
  readFrom globals env g.name g .start words

end ZoneConsole.CommandLine
