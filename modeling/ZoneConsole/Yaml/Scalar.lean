import ZoneConsole.Binary64.Reader
import ZoneConsole.Text.Lines

/-!
# Texts in YAML

A text stands as it is if it can be taken for nothing else; one that looks like
another value, or that begins or goes on like something else, is put between
single quotes; one with characters that have no shape is put between double
quotes, with escapes; and one of several lines is written as a block of lines.

**`textLines`** is the written form: its first line, and lines that belong below it.
-/

namespace ZoneConsole.Yaml

/-- Does the character end a line? -/
def isBreak (c : Char) : Bool :=
  c = '\n' || c = '\r' || c.toNat = 0x85 || c.toNat = 0x2028 || c.toNat = 0x2029

/-- Can the character be written as it is? -/
def isPrintable (c : Char) : Bool :=
  let n := c.toNat
  n = 0x0a || (0x20 ≤ n && n ≤ 0x7e) || (0xa0 ≤ n && n ≤ 0xd7ff) ||
    (0xe000 ≤ n && n ≤ 0xfffd && n != 0xfeff) || 0x10000 ≤ n

/-- Does the character part words? -/
def isGap (c : Char) : Bool := c = ' ' || c = '\t' || isBreak c || c.toNat = 0

/-- Is there a gap here, or nothing? -/
def gapNext : List Char → Bool
  | [] => true
  | c :: _ => isGap c

/-- The characters that mean something at the start of a text. -/
def indicators : List Char :=
  ['#', ',', '[', ']', '\x7b', '\x7d', '&', '*', '!', '|', '>', '\'', '"', '%', '@', '\x60']

/-- Does something within the text end it? `gapBefore` says whether a gap precedes. -/
def breaksOff (gapBefore : Bool) : List Char → Bool
  | [] => false
  | c :: rest =>
    (c = ':' && gapNext rest) || (c = '#' && gapBefore) || breaksOff (isGap c) rest

/-- Does the text begin or go on like something else? -/
def isMarked : List Char → Bool
  | '-' :: '-' :: '-' :: _ => true
  | '.' :: '.' :: '.' :: _ => true
  | [] => false
  | c :: rest =>
    indicators.contains c || (['?', ':', '-'].contains c && gapNext rest) ||
      breaksOff (isGap c) rest

/-- Does a character of one kind stand right before one of another? -/
def adjacent (p q : Char → Bool) : List Char → Bool
  | a :: b :: rest => (p a && q b) || adjacent p q (b :: rest)
  | _ => false

/-- Is the character a blank? -/
def isSpace (c : Char) : Bool := c = ' '

/-- Does the first or the last character have the property? -/
def atEdge (p : Char → Bool) (cs : List Char) : Bool :=
  (cs.head?.map p).getD false || (cs.getLast?.map p).getD false

/-- Can the text stand without quotes? -/
def allowsPlain (cs : List Char) : Bool :=
  cs.all isPrintable && !cs.any isBreak && !atEdge isSpace cs && !isMarked cs

/-- Can the text stand between single quotes? -/
def allowsSingle (cs : List Char) : Bool :=
  cs.all isPrintable && !adjacent isBreak isSpace cs && !adjacent isSpace isBreak cs

/-- Can the text stand as a block of lines? -/
def allowsBlock (cs : List Char) : Bool :=
  cs.all isPrintable && !adjacent isSpace isBreak cs && !(cs.getLast?.map isSpace).getD false

/-- The value of digits of a base. -/
def baseValue? (base : Nat) (ds : List Char) : Option Nat :=
  if ds.isEmpty then none
  else
    ds.foldl (fun acc d => match acc, Text.hexValue? d with
      | some n, some v => if v < base then some (n * base + v) else none
      | _, _ => none) (some 0)

/-- Does the text look like a whole number after a prefix? -/
def looksPrefixed (cs : List Char) : Bool :=
  let (negative, body) := Text.takeSign cs
  let value := match body with
    | '0' :: 'x' :: ds => baseValue? 16 ds
    | '0' :: 'o' :: ds => baseValue? 8 ds
    | '0' :: 'b' :: ds => baseValue? 2 ds
    | _ => none
  match value with
  | some n =>
    if negative then n ≤ UInt64.size * (UInt64.size / 2) else n < UInt64.size * UInt64.size
  | none => false

/-- Does the text look like a number in decimal digits? -/
def looksDecimal (cs : List Char) : Bool :=
  let (_, body) := Text.takeSign cs
  let leadingZero := match body with
    | '0' :: d :: ds => (d :: ds).all Text.isDigit
    | _ => false
  leadingZero ||
    match Binary64.read? cs with
    | some x => !x.isInfinite
    | none => false

/-- The words that stand for other values, or did so in the past. -/
def words : List String :=
  ["", "null", "Null", "NULL", "~", "true", "True", "TRUE", "false", "False", "FALSE",
    "y", "Y", "yes", "Yes", "YES", "n", "N", "no", "No", "NO",
    "on", "On", "ON", "off", "Off", "OFF",
    ".inf", ".Inf", ".INF", "+.inf", "+.Inf", "+.INF", "-.inf", "-.Inf", "-.INF",
    ".nan", ".NaN", ".NAN"]

/-- Does the text look like a value other than a text? -/
def looksLikeValue (s : String) : Bool :=
  words.contains s || looksPrefixed s.toList || looksDecimal s.toList

/-- The digits of a code in a width. -/
def hexPadded (width n : Nat) : List Char :=
  let ds := (Nat.toDigits 16 n).map Char.toUpper
  List.replicate (width - ds.length) '0' ++ ds

/-- A character as it stands between double quotes. -/
def escapeChar (c : Char) : List Char :=
  let n := c.toNat
  if c = '"' ∨ c = '\\' then ['\\', c]
  else if isPrintable c ∧ ¬ isBreak c then [c]
  else if n = 0 then ['\\', '0']
  else if n = 0x07 then ['\\', 'a']
  else if n = 0x08 then ['\\', 'b']
  else if n = 0x09 then ['\\', 't']
  else if n = 0x0a then ['\\', 'n']
  else if n = 0x0b then ['\\', 'v']
  else if n = 0x0c then ['\\', 'f']
  else if n = 0x0d then ['\\', 'r']
  else if n = 0x1b then ['\\', 'e']
  else if n = 0x85 then ['\\', 'N']
  else if n = 0x2028 then ['\\', 'L']
  else if n = 0x2029 then ['\\', 'P']
  else if n ≤ 0xff then '\\' :: 'x' :: hexPadded 2 n
  else if n ≤ 0xffff then '\\' :: 'u' :: hexPadded 4 n
  else '\\' :: 'U' :: hexPadded 8 n

/-- A text between double quotes. -/
def doubleQuoted (cs : List Char) : List Char := '"' :: (cs.flatMap escapeChar ++ ['"'])

/-- A text between single quotes, in which a quote is written twice. -/
def singleQuoted (cs : List Char) : List Char :=
  '\'' :: (cs.flatMap (fun c => if c = '\'' then ['\'', '\''] else [c]) ++ ['\''])

/-- What the mark of a block says about its end: the line breaks that count. -/
def chomping (cs : List Char) : List Char :=
  match cs.reverse with
  | a :: b :: _ => if !isBreak a then ['-'] else if isBreak b then ['+'] else []
  | [a] => if isBreak a then ['+'] else ['-']
  | [] => ['-']

/-- A text as a block: its mark, and its lines. -/
def blockLines (cs : List Char) : List (List Char) :=
  let hint := match cs with
    | c :: _ => if isSpace c || isBreak c then ['2'] else []
    | [] => []
  let lines := Text.splitLines cs
  let lines := if lines.getLast? = some [] then lines.dropLast else lines
  ('|' :: (hint ++ chomping cs)) :: lines

/-- A text that stands on one line. -/
def oneLine (s : String) : List Char :=
  let cs := s.toList
  if allowsPlain cs && !looksLikeValue s then cs
  else if allowsSingle cs then singleQuoted cs
  else doubleQuoted cs

/-- The written form of a text. -/
def textLines (s : String) : List (List Char) :=
  let cs := s.toList
  if cs.contains '\n' then if allowsBlock cs then blockLines cs else [doubleQuoted cs]
  else [oneLine s]

/-- Can the text be a name on one line? -/
def isSimpleName (s : String) : Bool := !s.toList.any isBreak && s.utf8ByteSize ≤ 128

end ZoneConsole.Yaml
