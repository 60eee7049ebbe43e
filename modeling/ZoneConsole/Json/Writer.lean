import ZoneConsole.Json.Quoted

/-!
# Writing JSON texts

**`compact`** writes a tree without any space, and **`pretty`** with one item or
member a line, each level two blanks further in; what is empty stays on its line.
-/

namespace ZoneConsole.Json

/-- A number. -/
def writeNumber : Number → List Char
  | .unsigned n => Text.decimal n
  | .signed i => Text.decimalInt i
  | .real (.finite s m e) => (Binary64.finite s m e).scientific
  | .real _ => "null".toList

/-- A truth value. -/
def writeBool (b : Bool) : List Char := if b then "true".toList else "false".toList

mutual

/-- A tree without any space. -/
def compact : Data → List Char
  | .null => "null".toList
  | .bool b => writeBool b
  | .num n => writeNumber n
  | .str s => writeQuoted s
  | .seq items => '[' :: compactItems items
  | .map members => '\x7b' :: compactMembers members

/-- Items after the opening bracket. -/
def compactItems : List Data → List Char
  | [] => [']']
  | [item] => compact item ++ [']']
  | item :: rest => compact item ++ ',' :: compactItems rest

/-- Members after the opening brace. -/
def compactMembers : List (String × Data) → List Char
  | [] => ['\x7d']
  | [(name, value)] => writeQuoted name ++ ':' :: (compact value ++ ['\x7d'])
  | (name, value) :: rest =>
    writeQuoted name ++ ':' :: (compact value ++ ',' :: compactMembers rest)

end

/-- A line break and the blanks of a level. -/
def newLine (level : Nat) : List Char := '\n' :: List.replicate (2 * level) ' '

mutual

/-- A tree with one item or member a line; `level` is the level it stands at. -/
def prettyAt (level : Nat) : Data → List Char
  | .seq [] => ['[', ']']
  | .seq (item :: rest) => '[' :: prettyItems (level + 1) (item :: rest)
  | .map [] => ['\x7b', '\x7d']
  | .map (member :: rest) => '\x7b' :: prettyMembers (level + 1) (member :: rest)
  | .null => "null".toList
  | .bool b => writeBool b
  | .num n => writeNumber n
  | .str s => writeQuoted s

/-- Items that stand at a level, and the closing bracket one level further out. -/
def prettyItems (level : Nat) : List Data → List Char
  | [] => newLine (level - 1) ++ [']']
  | [item] => newLine level ++ prettyAt level item ++ newLine (level - 1) ++ [']']
  | item :: rest => newLine level ++ prettyAt level item ++ ',' :: prettyItems level rest

/-- Members that stand at a level, and the closing brace one level further out. -/
def prettyMembers (level : Nat) : List (String × Data) → List Char
  | [] => newLine (level - 1) ++ ['\x7d']
  | [(name, value)] =>
    newLine level ++ writeQuoted name ++ ':' :: ' ' :: prettyAt level value
      ++ newLine (level - 1) ++ ['\x7d']
  | (name, value) :: rest =>
    newLine level ++ writeQuoted name ++ ':' :: ' ' :: prettyAt level value
      ++ ',' :: prettyMembers level rest

end

/-- A tree with one item or member a line. -/
def pretty (d : Data) : List Char := prettyAt 0 d

end ZoneConsole.Json
