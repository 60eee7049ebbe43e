import ZoneConsole.Url

/-!
# Reading URLs

**`Url.parse`** reads an absolute URL, and **`Url.join`** resolves a reference
against one. Blanks and controls at both ends are dropped, and tabs and line
breaks everywhere. Segments that stand for the directory itself or the one above
are resolved, and in special schemes a backslash counts as a slash.
-/

namespace ZoneConsole.Url

/-- A text as it is read: without blanks and controls at its ends, and without tabs
    and line breaks. -/
def clean (cs : List Char) : List Char :=
  let blank (c : Char) : Bool := c.toNat ≤ 0x20
  let inner := ((cs.dropWhile blank).reverse.dropWhile blank).reverse
  inner.filter fun c => !(c = '\t' || c = '\n' || c = '\r')

/-- A scheme and what follows its colon. -/
def readScheme (cs : List Char) : Option (String × List Char) :=
  let isPart (c : Char) : Bool := c.isAlphanum || c = '+' || c = '-' || c = '.'
  match cs with
  | c :: _ =>
    if c.isAlpha then
      match cs.dropWhile isPart with
      | ':' :: rest => some (String.ofList ((cs.takeWhile isPart).map Char.toLower), rest)
      | _ => none
    else none
  | [] => none

/-- Does the character part segments? -/
def isSlash (special : Bool) (c : Char) : Bool := c = '/' || (special && c = '\\')

/-- Does the character end a path? -/
def endsPath (c : Char) : Bool := c = '?' || c = '#'

/-- A text up to the first character with a property, and the rest from there. -/
def cutAt (stop : Char → Bool) (cs : List Char) : List Char × List Char :=
  (cs.takeWhile (!stop ·), cs.dropWhile (!stop ·))

/-- Does the segment stand for the directory it is in? -/
def isDot (s : List Char) : Bool :=
  let s := s.map Char.toLower
  s = ['.'] || s = ['%', '2', 'e']

/-- Does the segment stand for the directory above? -/
def isDotDot (s : List Char) : Bool :=
  let s := s.map Char.toLower
  s = ['.', '.'] || s = ['.', '%', '2', 'e'] || s = ['%', '2', 'e', '.'] ||
    s = ['%', '2', 'e', '%', '2', 'e']

/-- Is the text the letter of a drive, with the mark after it? -/
def isDrive : List Char → Bool
  | [c, mark] => c.isAlpha && (mark = ':' || mark = '|')
  | _ => false

/-- Does a text begin with a segment that is the letter of a drive? -/
def startsWithDrive (cs : List Char) : Bool :=
  isDrive (cs.takeWhile fun c => !(isSlash true c || endsPath c))

/-- The directory above. The letter of a drive is never left. -/
def parent (dir : List String) : List String :=
  match dir.getLast? with
  | some s => if isDrive s.toList then dir else dir.dropLast
  | none => []

/-- Appends segments to those of a directory, with the special ones resolved. The
    last one leaves a slash at the end if it is special. -/
def resolveSegments (encode : List Char → String) : List String → List (List Char) → List String
  | dir, [] => dir
  | dir, [s] =>
    if isDotDot s then parent dir ++ [""]
    else if isDot s then dir ++ [""]
    else dir ++ [encode s]
  | dir, s :: rest =>
    if isDotDot s then resolveSegments encode (parent dir) rest
    else if isDot s then resolveSegments encode dir rest
    else resolveSegments encode (dir ++ [encode s]) rest

/-- A segment with the characters encoded that may not stand in a path. -/
def encodeInPath (s : List Char) : String := String.ofList (percentEncode pathSet s)

/-- The path of a file has no empty segments at its start. -/
def trimFile (scheme : String) (segments : List String) : List String :=
  if scheme = "file" then
    match segments.dropWhile (·.isEmpty) with
    | [] => [""]
    | s :: rest => s :: rest
  else segments

/-- The letter of a drive at the start of the path of a file has a colon after it. -/
def markDrive (scheme : String) : List (List Char) → List (List Char)
  | [c, mark] :: rest =>
    (if scheme = "file" && isDrive [c, mark] then [c, ':'] else [c, mark]) :: rest
  | segments => segments

/-- The segments of a path after its first slash, below a directory. -/
def readSegments (scheme : String) (dir : List String) (cs : List Char) : List String :=
  let segments := splitOn (isSlash (isSpecial scheme)) cs
  let segments := if dir.isEmpty then markDrive scheme segments else segments
  trimFile scheme (resolveSegments encodeInPath dir segments)

/-- The path that follows an authority. -/
def readPath (scheme : String) (cs : List Char) : List String :=
  match cs with
  | [] => if isSpecial scheme then [""] else []
  | c :: rest =>
    readSegments scheme [] (if isSlash (isSpecial scheme) c then rest else cs)

/-- The query and the fragment that follow a path. -/
def readTail (scheme : String) (u : Url) (cs : List Char) : Url :=
  let (queryPart, fragmentPart) := cutAt (· = '#') cs
  let set := if isSpecial scheme then specialQuerySet else querySet
  let query := match queryPart with
    | '?' :: q => some (String.ofList (percentEncode set q))
    | _ => none
  let fragment := match fragmentPart with
    | '#' :: f => some (String.ofList (percentEncode fragmentSet f))
    | _ => none
  { u with query, fragment }

/-- The user, the password, and what follows the sign after them. The last such sign
    before the host counts. -/
def readUser (special : Bool) (cs : List Char) :
    Except UrlError (String × Option String × Bool × List Char) :=
  let isEnd (c : Char) : Bool := isSlash special c || endsPath c
  let (authority, rest) := cutAt isEnd cs
  let back := authority.reverse
  match back.dropWhile (· ≠ '@') with
  | [] => .ok ("", none, false, cs)
  | _ :: before =>
    let info := before.reverse
    let after := (back.takeWhile (· ≠ '@')).reverse ++ rest
    let encode (s : List Char) : String := String.ofList (percentEncode userSet s)
    if info.isEmpty then
      match after with
      | c :: _ => if isEnd c then .error .emptyHost else .ok ("", none, false, after)
      | [] => .ok ("", none, false, after)
    else
      match cutAt (· = ':') info with
      | (user, ':' :: []) => .ok (encode user, none, !user.isEmpty, after)
      | (user, ':' :: password) => .ok (encode user, some (encode password), true, after)
      | (user, _) => .ok (encode user, none, true, after)

/-- The text of a host: up to a colon outside brackets, or the end of the authority. -/
def takeHost (special : Bool) (inside : Bool) : List Char → List Char × List Char
  | [] => ([], [])
  | c :: rest =>
    if (c = ':' && !inside) || isSlash special c || endsPath c then ([], c :: rest)
    else
      let inside := if c = '[' then true else if c = ']' then false else inside
      let (host, after) := takeHost special inside rest
      (c :: host, after)

/-- The port after a colon; the usual one of the scheme is left out. -/
def readPort (scheme : String) (cs : List Char) : Except UrlError (Option Nat × List Char) :=
  let digits := cs.takeWhile Text.isDigit
  let rest := cs.dropWhile Text.isDigit
  let n := Text.decimalValue digits
  let ends := match rest with
    | [] => true
    | c :: _ => isSlash true c || endsPath c
  if 65535 < n || !ends then .error .invalidPort
  else .ok (if digits.isEmpty || defaultPort? scheme = some n then none else some n, rest)

/-- An empty URL of a scheme. -/
def ofScheme (scheme : String) : Url := ⟨scheme, "", none, none, none, .segments [], none, none⟩

/-- Reads what follows two slashes: user, host, port, path, query and fragment. -/
def readAuthority (scheme : String) (cs : List Char) : Except UrlError Url := do
  let special := isSpecial scheme
  let (user, password, hasUser, cs) ← readUser special cs
  let (hostText, cs) := takeHost special false cs
  let host ← (if special then
      (if hostText.isEmpty then .error .emptyHost else Host.readSpecial hostText)
    else Host.readOpaque hostText)
  let (port, cs) ← (match cs with
    | ':' :: rest => if hostText.isEmpty then .error .emptyHost else readPort scheme rest
    | cs => .ok (none, cs))
  if hostText.isEmpty && hasUser then .error .emptyHost
  else
    let (pathText, tail) := cutAt endsPath cs
    .ok (readTail scheme ⟨scheme, user, password, some host, port,
      .segments (readPath scheme pathText), none, none⟩ tail)

/-- Reads the host, the path, the query and the fragment of a file. The letter of a
    drive is no host. -/
def readFileHost (cs : List Char) : Except UrlError Url := do
  let (hostText, cs) :=
    if startsWithDrive cs then ([], cs) else cutAt (fun c => isSlash true c || endsPath c) cs
  let host ← (if hostText.isEmpty then .ok (.domain "") else Host.readSpecial hostText)
  let host := if host = .domain "localhost" then .domain "" else host
  let (pathText, tail) := cutAt endsPath cs
  .ok (readTail "file" { ofScheme "file" with
    host := some host, path := .segments (readPath "file" pathText) } tail)

/-- Reads what follows the scheme of a file, resolved against a file if one is given. -/
def readFile (base : Option Url) (cs : List Char) : Except UrlError Url :=
  let (pathText, tail) := cutAt endsPath cs
  let empty : Url := { ofScheme "file" with host := some (.domain ""), path := .segments [""] }
  let start := if startsWithDrive cs then empty else base.getD empty
  let list := match start.path with
    | .segments list => list
    | .opaqueText _ => []
  let dir := if list.length = 1 then parent list else list.dropLast
  match cs with
  | c :: d :: rest =>
    if isSlash true c && isSlash true d then readFileHost rest
    else if isSlash true c then
      let drive := if startsWithDrive (d :: rest) then [] else list.take 1
      if drive.any (isDrive ·.toList) then
        .ok (readTail "file" { empty with
          path := .segments (readSegments "file" drive (pathText.drop 1)) } tail)
      else
        .ok (readTail "file" { start with path := .segments (readPath "file" pathText) } tail)
    else relative start dir pathText tail c
  | [c] =>
    if isSlash true c then
      .ok { start with path := .segments [""], query := none, fragment := none }
    else relative start dir pathText tail c
  | [] =>
    match base with
    | some b => .ok b.withoutFragment
    | none => .ok empty
where
  /-- A reference that does not begin with a slash. -/
  relative (start : Url) (dir : List String) (pathText tail : List Char) (c : Char) :
      Except UrlError Url :=
    if c = '#' then .ok { readTail "file" start tail with query := start.query }
    else if c = '?' then .ok (readTail "file" start tail)
    else
      .ok (readTail "file" { start with path := .segments (readSegments "file" dir pathText) } tail)

/-- Reads what follows a scheme that is not special. -/
def readPlain (scheme : String) (cs : List Char) : Except UrlError Url :=
  match cs with
  | '/' :: '/' :: rest => readAuthority scheme rest
  | _ =>
    let (pathText, tail) := cutAt endsPath cs
    let path := match pathText with
      | '/' :: rest => UrlPath.segments (readSegments scheme [] rest)
      | _ => .opaqueText (String.ofList (percentEncode controlSet pathText))
    .ok (readTail scheme { ofScheme scheme with path } tail)

/-- Resolves a reference without a scheme against a base with a path of segments. -/
def readRelative (base : Url) (list : List String) (cs : List Char) : Except UrlError Url :=
  let (pathText, tail) := cutAt endsPath cs
  match cs with
  | [] => .ok base.withoutFragment
  | '?' :: _ => .ok (readTail base.scheme base cs)
  | '#' :: _ => .ok { readTail base.scheme base cs with query := base.query }
  | c :: _ =>
    if isSlash true c then
      let after := cs.dropWhile (isSlash true)
      if 2 ≤ cs.length - after.length then
        match cs with
        | '/' :: '/' :: rest => readAuthority base.scheme rest
        | _ => readAuthority base.scheme after
      else
        .ok (readTail base.scheme { base with
          path := .segments (readSegments base.scheme [] (pathText.drop 1)) } tail)
    else
      .ok (readTail base.scheme { base with
        path := .segments (readSegments base.scheme list.dropLast pathText) } tail)

/-- Reads a URL, resolved against another if one is given. -/
def read (base : Option Url) (s : String) : Except UrlError Url :=
  let cs := clean s.toList
  match readScheme cs with
  | some (scheme, rest) =>
    if scheme = "file" then readFile (base.filter (·.scheme == "file")) rest
    else if isSpecial scheme then
      match base with
      | some b =>
        match b.path with
        | .segments list =>
          if ((rest.takeWhile (isSlash true)).length < 2) && b.scheme = scheme then
            readRelative b list rest
          else readAuthority scheme (rest.dropWhile (isSlash true))
        | .opaqueText _ => readAuthority scheme (rest.dropWhile (isSlash true))
      | none => readAuthority scheme (rest.dropWhile (isSlash true))
    else readPlain scheme rest
  | none =>
    match base with
    | none => .error .relativeWithoutBase
    | some b =>
      match b.path, cs with
      | _, '#' :: _ => .ok { readTail b.scheme b cs with query := b.query }
      | .opaqueText _, _ => .error .relativeToOpaque
      | .segments list, _ =>
        if b.scheme = "file" then readFile (some b) cs else readRelative b list cs

/-- Reads an absolute URL. -/
def parse (s : String) : Except UrlError Url := read none s

/-- Resolves a reference against a URL. -/
def join (base : Url) (reference : String) : Except UrlError Url := read (some base) reference

end ZoneConsole.Url
