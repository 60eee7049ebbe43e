import ZoneConsole.Data
import ZoneConsole.Toml.Quoted

/-!
# Writing TOML documents

A document is written in blocks, each a table under its header: first the values
of a table, then the tables in it. A table that holds nothing but tables needs no
header, an empty one does. What is null is left out.

**`Toml.write`** is the text of a tree, if TOML has one for it.
-/

namespace ZoneConsole.Toml

/-- Why a tree cannot be written. -/
inductive WriteFault
  | outOfRange | noTable | nullItem
  deriving DecidableEq, Repr

/-- The text of the reason. -/
def WriteFault.message : WriteFault → String
  | outOfRange => "out-of-range value for u64 type"
  | noTable => "unsupported type for a document"
  | nullItem => "unsupported None value"

/-- Writes a number; whole numbers have 64 bits with a sign. -/
def writeNumber : Number → Except WriteFault (List Char)
  | .unsigned n => if n < 0x8000000000000000 then .ok (Text.decimal n) else .error .outOfRange
  | .signed i => .ok (Text.decimalInt i)
  | .real x => .ok x.scientific

/-- Is the value null? -/
def isNull : Data → Bool
  | .null => true
  | _ => false

/-- Is the value a table? -/
def isTable : Data → Bool
  | .map _ => true
  | _ => false

/-- Joins texts with a comma between them. -/
def commaList : List (List Char) → List Char
  | [] => []
  | [t] => t
  | t :: rest => t ++ ',' :: ' ' :: commaList rest

mutual

/-- Writes a value within a line. -/
def writeValue : Data → Except WriteFault (List Char)
  | .null => .error .nullItem
  | .bool b => .ok (if b then "true".toList else "false".toList)
  | .num n => writeNumber n
  | .str s => .ok (writeText s)
  | .seq items => (writeItems items).map fun ts => '[' :: (commaList ts ++ [']'])
  | .map members =>
    (writePairs members).map fun ts =>
      if ts.isEmpty then ['\x7b', '\x7d']
      else '\x7b' :: ' ' :: (commaList ts ++ [' ', '\x7d'])

/-- Writes items. -/
def writeItems : List Data → Except WriteFault (List (List Char))
  | [] => .ok []
  | item :: rest =>
    match writeValue item with
    | .error e => .error e
    | .ok t => (writeItems rest).map (t :: ·)

/-- Writes members. -/
def writePairs : List (String × Data) → Except WriteFault (List (List Char))
  | [] => .ok []
  | (name, value) :: rest =>
    if isNull value then writePairs rest
    else
      match writeValue value with
      | .error e => .error e
      | .ok t => (writePairs rest).map ((writeName name ++ " = ".toList ++ t) :: ·)

end

/-- The header of a table. -/
def writeHeader (path : List String) : List Char :=
  let names := path.map writeName
  '[' :: ((names.intersperse ['.']).flatten ++ [']'])

/-- The blocks of a table itself, without the tables in it: one or none. -/
def ownBlock (path : List String) (members : List (String × Data)) :
    Except WriteFault (List (List Char)) :=
  match writePairs (members.filter fun (_, value) => !isTable value) with
  | .error e => .error e
  | .ok lines =>
    let body := lines.flatMap (· ++ ['\n'])
    if path.isEmpty then .ok (if lines.isEmpty then [] else [body])
    else if lines.isEmpty && members.any (fun (_, value) => isTable value) then .ok []
    else .ok [writeHeader path ++ '\n' :: body]

mutual

/-- The blocks of a table and of the tables in it. -/
def tableBlocks (path : List String) : Data → Except WriteFault (List (List Char))
  | .map members =>
    match ownBlock path members with
    | .error e => .error e
    | .ok own => (memberBlocks path members).map (own ++ ·)
  | _ => .ok []

/-- The blocks of the tables among members. -/
def memberBlocks (path : List String) :
    List (String × Data) → Except WriteFault (List (List Char))
  | [] => .ok []
  | (name, value) :: rest =>
    match tableBlocks (path ++ [name]) value with
    | .error e => .error e
    | .ok blocks => (memberBlocks path rest).map (blocks ++ ·)

end

/-- The text of a tree; an empty line stands between blocks. -/
def write (d : Data) : Except WriteFault String :=
  if isTable d then
    (tableBlocks [] d).map fun blocks => String.ofList (blocks.intersperse ['\n']).flatten
  else .error .noTable

end ZoneConsole.Toml
