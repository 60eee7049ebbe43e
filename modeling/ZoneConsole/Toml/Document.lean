import ZoneConsole.Toml.Scalar

/-!
# TOML documents

A document is read line by line into statements, and the statements are put into
a tree. The tree keeps for each table how it came about, because a table may be
stated once only: one that merely leads to another may still be stated, one that
grew from a name with dots may still grow that way, and nothing else.

**`Toml.read`** is the tree of a document, if it is one.
-/

namespace ZoneConsole.Toml

/-- What a line states: a value under a name, a table, or one more table of a list. -/
inductive Statement
  | assign (path : List String) (value : Data)
  | table (path : List String)
  | listTable (path : List String)

/-- A tree under construction. A table is led to if no header states it, and dotted if a
    name with dots made it. -/
inductive Node
  | value (data : Data)
  | table (ledTo dotted : Bool) (entries : List (String × Node))
  | tables (elements : List Node)

namespace Node

/-- The node of a name. -/
def find (name : String) : List (String × Node) → Option Node
  | [] => none
  | (n, node) :: rest => if n = name then some node else find name rest

/-- Puts a node in the place of the one of its name. -/
def replace (name : String) (node : Node) (entries : List (String × Node)) :
    List (String × Node) :=
  entries.map fun (n, old) => if n = name then (n, node) else (n, old)

/-- Changes the table at the end of a path. Tables on the way are made where there are
    none; a path with dots does not enter a table that a header states. -/
def change (dotted : Bool) (f : Node → Option Node) : List String → Node → Option Node
  | [], node => f node
  | name :: rest, .table ledTo dotted' entries =>
    match find name entries with
    | none =>
      (change dotted f rest (.table true dotted [])).map fun node =>
        .table ledTo dotted' (entries ++ [(name, node)])
    | some (.value _) => none
    | some (.tables elements) =>
      match elements.getLast? with
      | none => none
      | some last =>
        (change dotted f rest last).map fun node =>
          .table ledTo dotted' (replace name (.tables (elements.dropLast ++ [node])) entries)
    | some (.table l d es) =>
      if dotted && !l then none
      else
        (change dotted f rest (.table l d es)).map fun node =>
          .table ledTo dotted' (replace name node entries)
  | _ :: _, _ => none

/-- States a table of a name. -/
def stateTable (name : String) : Node → Option Node
  | .table l d entries =>
    match find name entries with
    | none => some (.table l d (entries ++ [(name, .table false false [])]))
    | some (.table true false es) =>
      some (.table l d (replace name (.table false false es) entries))
    | some _ => none
  | _ => none

/-- Adds a table to the list of a name. -/
def addTable (name : String) : Node → Option Node
  | .table l d entries =>
    match find name entries with
    | none => some (.table l d (entries ++ [(name, .tables [.table false false []])]))
    | some (.tables elements) =>
      some (.table l d (replace name (.tables (elements ++ [.table false false []])) entries))
    | some _ => none
  | _ => none

/-- Puts a value under a name that is free; after a path with dots only into a table that
    such a path made. -/
def assign (throughDots : Bool) (name : String) (value : Data) : Node → Option Node
  | .table l d entries =>
    if throughDots != d then none
    else
      match find name entries with
      | none => some (.table l d (entries ++ [(name, .value value)]))
      | some _ => none
  | _ => none

/-- Puts a value into a table, under a path. -/
def assignAt (path : List String) (value : Data) (node : Node) : Option Node :=
  match path.getLast? with
  | none => none
  | some name =>
    let dir := path.dropLast
    node.change true (assign (!dir.isEmpty) name value) dir

mutual

/-- The tree of a node. -/
def toData : Node → Data
  | .value d => d
  | .table _ _ entries => .map (entriesData entries)
  | .tables elements => .seq (elementsData elements)

/-- The members of entries. -/
def entriesData : List (String × Node) → List (String × Data)
  | [] => []
  | (name, node) :: rest => (name, toData node) :: entriesData rest

/-- The items of a list of tables. -/
def elementsData : List Node → List Data
  | [] => []
  | node :: rest => toData node :: elementsData rest

end

end Node

/-- The statements put into a tree; `header` is the path of the table stated last. -/
def assemble : List String → Node → List Statement → Option Node
  | _, root, [] => some root
  | header, root, statement :: rest =>
    match statement with
    | .table path =>
      match path.getLast? with
      | none => none
      | some name =>
        match root.change false (Node.stateTable name) path.dropLast with
        | none => none
        | some root => assemble path root rest
    | .listTable path =>
      match path.getLast? with
      | none => none
      | some name =>
        match root.change false (Node.addTable name) path.dropLast with
        | none => none
        | some root => assemble path root rest
    | .assign path value =>
      match root.change false (Node.assignAt path value) header with
      | none => none
      | some root => assemble header root rest

/-- Blanks within a line are skipped. -/
def skipSpaces (cs : List Char) : List Char := cs.dropWhile isSpace

/-- The rest of a line after a comment, if there is one; a comment holds no controls. -/
def skipComment (cs : List Char) : Option (List Char) :=
  match cs with
  | '#' :: r =>
    let body := r.takeWhile fun c => c ≠ '\n' && c ≠ '\r'
    if body.any isControl then none else some (r.drop body.length)
  | cs => some cs

/-- The next line, after nothing but blanks and a comment. -/
def endLine (cs : List Char) : Option (List Char) :=
  match skipComment (skipSpaces cs) with
  | none => none
  | some [] => some []
  | some r => newLine? r

/-- Skips blanks, comments and line breaks. -/
def skipLines : Nat → List Char → Option (List Char)
  | 0, cs => some cs
  | fuel + 1, cs =>
    match skipComment (skipSpaces cs) with
    | none => none
    | some r =>
      match newLine? r with
      | some r => skipLines fuel r
      | none => some r

/-- Reads names parted by dots. -/
def readPath : Nat → List Char → Parsed (List String)
  | 0, _ => none
  | fuel + 1, cs =>
    match readNamePart (skipSpaces cs) with
    | none => none
    | some (name, r) =>
      match skipSpaces r with
      | '.' :: more => (readPath fuel more).map fun (names, r) => (name :: names, r)
      | r => some ([name], r)

/-- The tree of the members of a table within a line. -/
def inlineTable (members : List (List String × Data)) : Option Data :=
  (members.foldl (fun node (path, value) => node.bind (Node.assignAt path value))
    (some (.table false false []))).map Node.toData

mutual

/-- Reads a value. -/
def readValue : Nat → List Char → Parsed Data
  | 0, _ => none
  | fuel + 1, cs =>
    match cs with
    | [] => none
    | 't' :: 'r' :: 'u' :: 'e' :: r => some (.bool true, r)
    | 'f' :: 'a' :: 'l' :: 's' :: 'e' :: r => some (.bool false, r)
    | '[' :: r =>
      match skipLines (r.length + 1) r with
      | none => none
      | some (']' :: r) => some (.seq [], r)
      | some r => (readItems fuel r).map fun (items, r) => (.seq items, r)
    | '\x7b' :: r =>
      match skipSpaces r with
      | '\x7d' :: r => some (.map [], r)
      | r =>
        match readPairs fuel r with
        | none => none
        | some (members, r) => (inlineTable members).map fun d => (d, r)
    | c :: _ =>
      if c = '"' ∨ c = '\'' then (readText cs).map fun (s, r) => (.str s, r)
      else if looksLikeDate cs then readDate cs
      else readNumber cs

/-- Reads the items of a list and its closing bracket. -/
def readItems : Nat → List Char → Parsed (List Data)
  | 0, _ => none
  | fuel + 1, cs =>
    match readValue fuel cs with
    | none => none
    | some (item, r) =>
      match skipLines (r.length + 1) r with
      | some (']' :: r) => some ([item], r)
      | some (',' :: r) =>
        match skipLines (r.length + 1) r with
        | some (']' :: r) => some ([item], r)
        | some r => (readItems fuel r).map fun (items, r) => (item :: items, r)
        | none => none
      | _ => none

/-- Reads the members of a table within a line and its closing brace. -/
def readPairs : Nat → List Char → Parsed (List (List String × Data))
  | 0, _ => none
  | fuel + 1, cs =>
    match readPath (cs.length + 1) cs with
    | some (path, '=' :: r) =>
      match readValue fuel (skipSpaces r) with
      | none => none
      | some (value, r) =>
        match skipSpaces r with
        | '\x7d' :: r => some ([(path, value)], r)
        | ',' :: r => (readPairs fuel r).map fun (ms, r) => ((path, value) :: ms, r)
        | _ => none
    | _ => none

end

/-- Reads a statement, up to its end. -/
def readStatement (cs : List Char) : Parsed Statement :=
  let fuel := cs.length + 1
  match cs with
  | '[' :: '[' :: r =>
    match readPath fuel r with
    | some (path, ']' :: ']' :: r) => some (.listTable path, r)
    | _ => none
  | '[' :: r =>
    match readPath fuel r with
    | some (path, ']' :: r) => some (.table path, r)
    | _ => none
  | cs =>
    match readPath fuel cs with
    | some (path, '=' :: r) =>
      (readValue (2 * fuel) (skipSpaces r)).map fun (value, r) => (.assign path value, r)
    | _ => none

/-- Reads the statements of a document, each on lines of its own. -/
def readStatements : Nat → List Char → Option (List Statement)
  | 0, _ => none
  | fuel + 1, cs =>
    match skipLines (cs.length + 1) cs with
    | none => none
    | some [] => some []
    | some r =>
      match readStatement r with
      | none => none
      | some (statement, r) =>
        match endLine r with
        | none => none
        | some r => (readStatements fuel r).map (statement :: ·)

/-- The tree of a document, if the text is one. A mark of the byte order at its start
    does not count. -/
def read (s : String) : Option Data :=
  let cs := match s.toList with
    | '\ufeff' :: r => r
    | cs => cs
  (readStatements (cs.length + 1) cs).bind fun statements =>
    (assemble [] (.table false false []) statements).map Node.toData

end ZoneConsole.Toml
