import ZoneConsole.Data
import ZoneConsole.Yaml.Scalar

/-!
# Writing YAML documents

A tree is written in lines: members and items one below the other, what is inside
a member two blanks further in, and the items of a list right below its name.
What is empty stays on its line.

**`Yaml.write`** is the document of a tree.
-/

namespace ZoneConsole.Yaml

/-- A line two blanks further in; an empty line stays empty. -/
def indent (line : List Char) : List Char := if line.isEmpty then [] else ' ' :: ' ' :: line

/-- Lines that hang on a mark. -/
def hang (mark : List Char) : List (List Char) → List (List Char)
  | [] => []
  | first :: rest => (mark ++ first) :: rest.map indent

/-- A number. -/
def writeNumber : Number → List Char
  | .unsigned n => Text.decimal n
  | .signed i => Text.decimalInt i
  | .real (.infinite negative) => (if negative then "-.inf" else ".inf").toList
  | .real .nan => ".nan".toList
  | .real x => x.scientific

/-- How the value of a member is placed: below its name, further in or not, or beside it. -/
inductive Placement
  | below | inside | beside
  deriving DecidableEq, Repr

/-- The place of a value. -/
def Placement.of : Data → Placement
  | .map (_ :: _) => inside
  | .seq (_ :: _) => below
  | _ => beside

/-- A member with the lines of its value. -/
def memberLines (name : String) (placement : Placement) (value : List (List Char)) :
    List (List Char) :=
  if isSimpleName name then
    let key := oneLine name
    match placement with
    | .inside => (key ++ [':']) :: value.map indent
    | .below => (key ++ [':']) :: value
    | .beside => hang (key ++ [':', ' ']) value
  else hang ['?', ' '] (textLines name) ++ hang [':', ' '] value

mutual

/-- The lines of a tree. -/
def lines : Data → List (List Char)
  | .null => ["null".toList]
  | .bool b => [(if b then "true" else "false").toList]
  | .num n => [writeNumber n]
  | .str s => textLines s
  | .seq [] => [['[', ']']]
  | .seq (item :: rest) => itemLines (item :: rest)
  | .map [] => [['\x7b', '\x7d']]
  | .map (member :: rest) => membersLines (member :: rest)

/-- The lines of items. -/
def itemLines : List Data → List (List Char)
  | [] => []
  | item :: rest => hang ['-', ' '] (lines item) ++ itemLines rest

/-- The lines of members. -/
def membersLines : List (String × Data) → List (List Char)
  | [] => []
  | (name, value) :: rest =>
    memberLines name (.of value) (lines value) ++ membersLines rest

end

/-- The document of a tree. -/
def write (d : Data) : String := String.ofList ((lines d).flatMap (· ++ ['\n']))

end ZoneConsole.Yaml
