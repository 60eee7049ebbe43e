import ZoneConsole.Text.Digits

/-!
# Texts and names in TOML

A text is written in one of four forms, chosen so that as little as possible has
to be escaped: in double quotes if nothing does, in single quotes if that keeps
quotes and backslashes, over several lines if it has line breaks, and with escapes
if nothing else will do. A name of letters, digits and dashes needs no quotes.

**`writeText`** and **`writeName`** write, **`readText`** and **`readNamePart`**
read the text or the name that a list of characters starts with.
-/

namespace ZoneConsole.Toml

/-- How many of a character stand in a row at most. -/
def longestRun (c : Char) (cs : List Char) : Nat :=
  (cs.foldl (fun (best, run) d =>
    let run := if d = c then run + 1 else 0
    (max best run, run)) (0, 0)).1

/-- Is the character a control other than a tab or a line break? -/
def isControl (c : Char) : Bool :=
  (c.toNat < 0x20 && c != '\t' && c != '\n') || c.toNat = 0x7f

/-- A character as it is written in double quotes, over one line or several. -/
def escapeChar (lines : Bool) (c : Char) : List Char :=
  if c = '"' then ['\\', '"']
  else if c = '\\' then ['\\', '\\']
  else if c.toNat = 0x08 then ['\\', 'b']
  else if c = '\t' then ['\\', 't']
  else if c = '\n' then (if lines then ['\n'] else ['\\', 'n'])
  else if c.toNat = 0x0c then ['\\', 'f']
  else if c = '\r' then ['\\', 'r']
  else if isControl c then
    ['\\', 'u', '0', '0', Text.hexDigitUpper (c.toNat / 16), Text.hexDigitUpper (c.toNat % 16)]
  else [c]

/-- A text in double quotes over one line. -/
def escapeLine (cs : List Char) : List Char := cs.flatMap (escapeChar false)

/-- A text in double quotes over several lines, in which no three quotes stand in a row;
    `quotes` counts those just written. -/
def escapeLines (quotes : Nat) : List Char → List Char
  | [] => []
  | c :: rest =>
    if c = '"' then
      if quotes < 2 then '"' :: escapeLines (quotes + 1) rest
      else '\\' :: '"' :: escapeLines 0 rest
    else escapeChar true c ++ escapeLines 0 rest

/-- A text between marks; over several lines it starts on a line of its own. -/
def surround (mark : List Char) (newLine : Bool) (body : List Char) : List Char :=
  mark ++ (if newLine then ['\n'] else []) ++ body ++ mark

/-- A text in the form that suits it. -/
def writeText (s : String) : List Char :=
  let cs := s.toList
  let controls := cs.any isControl
  let backslash := cs.contains '\\'
  let lines := cs.contains '\n'
  let doubles := longestRun '"' cs
  let singles := longestRun '\'' cs
  if !controls && !backslash && doubles = 0 && !lines then surround ['"'] false (escapeLine cs)
  else if !controls && singles = 0 && !lines then surround ['\''] false cs
  else if !controls && !backslash && doubles ≤ 2 then
    surround ['"', '"', '"'] lines (escapeLines 0 cs)
  else if !controls && singles ≤ 2 then surround ['\'', '\'', '\''] lines cs
  else if lines then surround ['"', '"', '"'] true (escapeLines 0 cs)
  else surround ['"'] false (escapeLine cs)

/-- May the character stand in a name without quotes? -/
def isBare (c : Char) : Bool := c.isAlphanum || c = '_' || c = '-'

/-- A name, in quotes if it needs them. -/
def writeName (s : String) : List Char :=
  let cs := s.toList
  let plain := !cs.any isControl && !cs.contains '\n'
  if !cs.isEmpty && cs.all isBare then cs
  else if plain && !cs.contains '\\' && !cs.contains '"' then surround ['"'] false (escapeLine cs)
  else if plain && !cs.contains '\'' then surround ['\''] false cs
  else surround ['"'] false (escapeLine cs)

/-- What a reader found and what follows it. -/
abbrev Parsed (α : Type) := Option (α × List Char)

/-- The value of hexadecimal digits. -/
def hexNumber (ds : List Char) : Option Nat :=
  ds.foldl (fun acc d => match acc, Text.hexValue? d with
    | some n, some v => some (n * 16 + v)
    | _, _ => none) (some 0)

/-- The character of a code, if there is one. -/
def charOfCode (n : Nat) : Option Char :=
  if n < 0xd800 ∨ (0xe000 ≤ n ∧ n ≤ 0x10ffff) then some (Char.ofNat n) else none

/-- The character that an escape writes, and what follows it. -/
def readEscape : List Char → Parsed Char
  | 'b' :: r => some ('\x08', r)
  | 't' :: r => some ('\t', r)
  | 'n' :: r => some ('\n', r)
  | 'f' :: r => some ('\x0c', r)
  | 'r' :: r => some ('\r', r)
  | '"' :: r => some ('"', r)
  | '\\' :: r => some ('\\', r)
  | 'u' :: r =>
    if r.length < 4 then none
    else ((hexNumber (r.take 4)).bind charOfCode).map fun c => (c, r.drop 4)
  | 'U' :: r =>
    if r.length < 8 then none
    else ((hexNumber (r.take 8)).bind charOfCode).map fun c => (c, r.drop 8)
  | _ => none

/-- Reads a text in double quotes over one line, after its opening quote. -/
def readLine : Nat → List Char → Parsed (List Char)
  | 0, _ => none
  | _, [] => none
  | _, '"' :: r => some ([], r)
  | fuel + 1, '\\' :: r =>
    match readEscape r with
    | none => none
    | some (c, r) => (readLine fuel r).map fun (cs, r) => (c :: cs, r)
  | fuel + 1, c :: r =>
    if c = '\n' || isControl c then none
    else (readLine fuel r).map fun (cs, r) => (c :: cs, r)

/-- Reads a text in single quotes over one line, after its opening quote. -/
def readLiteral : List Char → Parsed (List Char)
  | [] => none
  | '\'' :: r => some ([], r)
  | c :: r =>
    if c = '\n' || isControl c then none else (readLiteral r).map fun (cs, r) => (c :: cs, r)

/-- Is the character a blank within a line? -/
def isSpace (c : Char) : Bool := c = ' ' || c = '\t'

/-- A text without the line break it starts with, if it does. -/
def newLine? : List Char → Option (List Char)
  | '\n' :: r => some r
  | '\r' :: '\n' :: r => some r
  | _ => none

/-- A text without the blanks and line breaks it starts with. -/
def skipBlankLines : Nat → List Char → List Char
  | 0, cs => cs
  | fuel + 1, cs =>
    match newLine? (cs.dropWhile isSpace) with
    | some r => skipBlankLines fuel r
    | none => cs.dropWhile isSpace

/-- The text after the marks that end a text over several lines: up to two quotes may
    stand right before them. -/
def closing (quote : Char) (cs : List Char) : Parsed (List Char) :=
  let run := cs.takeWhile (· = quote)
  if run.length < 3 then none
  else if run.length ≤ 5 then some (List.replicate (run.length - 3) quote, cs.drop run.length)
  else some ([quote, quote], cs.drop 5)

/-- Reads a text in double quotes over several lines, after its opening marks. -/
def readLines : Nat → List Char → Parsed (List Char)
  | 0, _ => none
  | fuel + 1, cs =>
    match closing '"' cs with
    | some (quotes, r) => some (quotes, r)
    | none =>
      match newLine? cs with
      | some r => (readLines fuel r).map fun (cs, r) => ('\n' :: cs, r)
      | none =>
        match cs with
        | [] => none
        | '\\' :: r =>
          match newLine? (r.dropWhile isSpace) with
          | some r => readLines fuel (skipBlankLines r.length r)
          | none =>
            match readEscape r with
            | none => none
            | some (c, r) => (readLines fuel r).map fun (cs, r) => (c :: cs, r)
        | c :: r =>
          if isControl c then none else (readLines fuel r).map fun (cs, r) => (c :: cs, r)

/-- Reads a text in single quotes over several lines, after its opening marks. -/
def readLiteralLines : Nat → List Char → Parsed (List Char)
  | 0, _ => none
  | fuel + 1, cs =>
    match closing '\'' cs with
    | some (quotes, r) => some (quotes, r)
    | none =>
      match newLine? cs with
      | some r => (readLiteralLines fuel r).map fun (cs, r) => ('\n' :: cs, r)
      | none =>
        match cs with
        | [] => none
        | c :: r =>
          if isControl c then none
          else (readLiteralLines fuel r).map fun (cs, r) => (c :: cs, r)

/-- Characters as a text. -/
def asText : Parsed (List Char) → Parsed String
  | some (cs, r) => some (String.ofList cs, r)
  | none => none

/-- The text without a line break right after the opening marks. -/
def afterMarks (cs : List Char) : List Char := (newLine? cs).getD cs

/-- Reads a text in any of its forms. -/
def readText : List Char → Parsed String
  | '"' :: '"' :: '"' :: r => asText (readLines (r.length + 1) (afterMarks r))
  | '\'' :: '\'' :: '\'' :: r => asText (readLiteralLines (r.length + 1) (afterMarks r))
  | '"' :: r => asText (readLine (r.length + 1) r)
  | '\'' :: r => asText (readLiteral r)
  | _ => none

/-- Reads a single name. -/
def readNamePart : List Char → Parsed String
  | '"' :: r => asText (readLine (r.length + 1) r)
  | '\'' :: r => asText (readLiteral r)
  | cs =>
    let name := cs.takeWhile isBare
    if name.isEmpty then none else some (String.ofList name, cs.dropWhile isBare)

end ZoneConsole.Toml
