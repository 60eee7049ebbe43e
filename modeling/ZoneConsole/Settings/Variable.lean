import ZoneConsole.Binary64.Reader
import ZoneConsole.Settings.Layer
import ZoneConsole.Text.Blank
import ZoneConsole.Toml.Quoted

/-!
# Settings from the environment

A variable whose name starts with the prefix, in any case of its letters, sets
the value at the path that the rest of its name writes, with two underscores
between the names on the path. Its text is read as a value: a truth value, a
number, a text in quotes, a list in brackets, a table in braces, or else a text
without the blanks around it. A text that is none of these as a whole stands for
itself.

**`environmentLayer`** is the layer of an environment.
-/

namespace ZoneConsole

/-- The variables of an environment with their values, in order. -/
abbrev Environment := List (String × String)

/-- How the names of variables that count begin. -/
def variablePrefix : String := "QUBES_AIR_"

namespace Variable

open Toml (Parsed)

/-- Is the character a blank between values? -/
def isGap (c : Char) : Bool :=
  c = ' ' || c = '\t' || c = '\n' || c = '\r' || c.toNat = 0x0c

/-- Does the character end a value without quotes? -/
def isDelimiter (c : Char) : Bool := [',', '\x7b', '\x7d', '[', ']'].contains c

/-- The rest after blanks. -/
def skipGaps (cs : List Char) : List Char := cs.dropWhile isGap

/-- May the character stand in quotes as it is? -/
def isShown (c : Char) : Bool := c = '\t' || (0x20 ≤ c.toNat && c.toNat != 0x7f)

/-- A text in double quotes, after the opening one. -/
def readText : Nat → List Char → Parsed (List Char)
  | 0, _ => none
  | _, [] => none
  | _, '"' :: r => some ([], r)
  | fuel + 1, '\\' :: r =>
    match Toml.readEscape r with
    | none => none
    | some (c, r) => (readText fuel r).map fun (cs, r) => (c :: cs, r)
  | fuel + 1, c :: r =>
    if isShown c then (readText fuel r).map fun (cs, r) => (c :: cs, r) else none

/-- A whole number of 64 bits. -/
def whole? (cs : List Char) : Option Number :=
  let (negative, ds) := Text.takeSign cs
  (Text.digits? ds).bind fun n =>
    if negative then if n ≤ 0x8000000000000000 then some (.signed (-n)) else none
    else if n < UInt64.size then some (.unsigned n) else none

/-- A number with a point in it. -/
def real? (cs : List Char) : Option Number :=
  if cs.contains '.' then (Binary64.read? cs).map .real else none

/-- The value of a text without quotes. -/
def bare (cs : List Char) : Data :=
  match (real? cs).or (whole? cs) with
  | some n => .num n
  | none => .str (String.ofList cs)

/-- The name of a member of a table, between blanks. -/
def readName (cs : List Char) : Parsed String :=
  match skipGaps cs with
  | '"' :: r =>
    match readText (r.length + 1) r with
    | some (name, r) => some (String.ofList name, skipGaps r)
    | none => none
  | r =>
    let name := r.takeWhile Toml.isBare
    if name.isEmpty then none else some (String.ofList name, skipGaps (r.dropWhile Toml.isBare))

mutual

/-- Reads a value and the blanks around it. -/
def readValue : Nat → List Char → Parsed Data
  | 0, _ => none
  | fuel + 1, cs =>
    let found : Parsed Data := match skipGaps cs with
      | 't' :: 'r' :: 'u' :: 'e' :: r => some (.bool true, r)
      | 'f' :: 'a' :: 'l' :: 's' :: 'e' :: r => some (.bool false, r)
      | '\x7b' :: r => (readMembers fuel r).map fun (ms, r) => (.map (sortMembers ms), r)
      | '[' :: r => (readItems fuel r).map fun (items, r) => (.seq items, r)
      | '"' :: r =>
        (readText (r.length + 1) r).map fun (text, r) => (.str (String.ofList text), r)
      | '\'' :: c :: '\'' :: r => some (.str (String.ofList [c]), r)
      | '\'' :: _ => none
      | r =>
        some (bare (Text.trimChars (r.takeWhile (!isDelimiter ·))), r.dropWhile (!isDelimiter ·))
    found.map fun (d, r) => (d, skipGaps r)

/-- Reads items and the closing bracket. -/
def readItems : Nat → List Char → Parsed (List Data)
  | 0, _ => none
  | _, ']' :: r => some ([], r)
  | fuel + 1, cs =>
    match readValue fuel cs with
    | some (item, ',' :: r) => (readItems fuel r).map fun (items, r) => (item :: items, r)
    | some (item, ']' :: r) => some ([item], r)
    | _ => none

/-- Reads members and the closing brace. -/
def readMembers : Nat → List Char → Parsed (List (String × Data))
  | 0, _ => none
  | _, '\x7d' :: r => some ([], r)
  | fuel + 1, cs =>
    match readName cs with
    | some (name, '=' :: r) =>
      match readValue fuel r with
      | some (value, ',' :: r) => (readMembers fuel r).map fun (ms, r) => ((name, value) :: ms, r)
      | some (value, '\x7d' :: r) => some ([(name, value)], r)
      | _ => none
    | _ => none

end

/-- The value of a variable. -/
def value (text : String) : Data :=
  match readValue (2 * text.length + 2) text.toList with
  | some (d, []) => d
  | _ => .str text

/-- A text with every two underscores in a row made a point. -/
def pointed : List Char → List Char
  | '_' :: '_' :: r => '.' :: pointed r
  | c :: r => c :: pointed r
  | [] => []

/-- The parts of a text between points. -/
def splitPoints : List Char → List (List Char)
  | [] => [[]]
  | c :: r =>
    if c = '.' then [] :: splitPoints r
    else
      match splitPoints r with
      | [] => [[c]]
      | part :: rest => (c :: part) :: rest

/-- The path that the name of a variable writes, if it counts. -/
def path? (name : String) : Option (List String) :=
  let cs := name.toList
  let start := cs.take variablePrefix.length
  if Text.lower (String.ofList start) = Text.lower variablePrefix then
    let parts := splitPoints (pointed (cs.drop variablePrefix.length))
    if parts.any (·.isEmpty) then none
    else some (parts.map fun part => Text.lower (String.ofList part))
  else none

end Variable

/-- The layer of settings that an environment makes. -/
def environmentLayer (env : Environment) : Data :=
  Data.layers (env.filterMap fun (name, text) =>
    (Variable.path? name).map fun path => (Variable.value text).nest path)

end ZoneConsole
