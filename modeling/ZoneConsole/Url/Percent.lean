import ZoneConsole.Text.Digits
import ZoneConsole.Text.Utf8

/-!
# Percent encoding

A character that may not stand in a part of a URL is written as its bytes, each
as a percent sign and two hexadecimal digits. Each part has its own set of such
characters. A form writes the blank as a plus sign instead.
-/

namespace ZoneConsole.Url

/-- A byte as a percent sign and two digits. -/
def percentByte (b : UInt8) : List Char :=
  ['%', Text.hexDigitUpper (b.toNat / 16), Text.hexDigitUpper (b.toNat % 16)]

/-- A character as its bytes, each in its encoded form. -/
def percentChar (c : Char) : List Char := (Text.utf8Char c).flatMap percentByte

/-- A text with the characters of a set encoded. -/
def percentEncode (set : Char → Bool) (cs : List Char) : List Char :=
  cs.flatMap fun c => if set c then percentChar c else [c]

/-- Controls and all characters beyond `U+007E`. -/
def controlSet (c : Char) : Bool := c.toNat < 0x20 || 0x7e < c.toNat

/-- What is encoded in a query. -/
def querySet (c : Char) : Bool := controlSet c || [' ', '"', '#', '<', '>'].contains c

/-- What is encoded in the query of a special scheme. -/
def specialQuerySet (c : Char) : Bool := querySet c || c = '\''

/-- What is encoded in a fragment. -/
def fragmentSet (c : Char) : Bool := controlSet c || [' ', '"', '<', '>', '\x60'].contains c

/-- What is encoded in a path. -/
def pathSet (c : Char) : Bool := fragmentSet c || ['#', '?', '\x7b', '\x7d'].contains c

/-- What is encoded in the name and the password of a user. -/
def userSet (c : Char) : Bool :=
  pathSet c || ['/', ':', ';', '=', '@', '[', '\\', ']', '^', '|'].contains c

/-- What is encoded in a single segment of a path. -/
def segmentSet (c : Char) : Bool := pathSet c || c = '/' || c = '%'

/-- What is encoded in a single segment of a path of a special scheme. -/
def specialSegmentSet (c : Char) : Bool := segmentSet c || c = '\\'

/-- The bytes of a text in which bytes may be encoded. -/
def percentDecode : List Char → List UInt8
  | [] => []
  | c :: rest =>
    match c, rest with
    | '%', a :: b :: more =>
      match Text.hexValue? a, Text.hexValue? b with
      | some a, some b => (a * 16 + b).toUInt8 :: percentDecode more
      | _, _ => Text.utf8Char c ++ percentDecode (a :: b :: more)
    | c, rest => Text.utf8Char c ++ percentDecode rest

/-- Does a character stand for itself in a form? -/
def formSet (c : Char) : Bool :=
  Text.isDigit c || ('a' ≤ c && c ≤ 'z') || ('A' ≤ c && c ≤ 'Z') || ['*', '-', '.', '_'].contains c

/-- A text as it is written in a form. -/
def formEncode (cs : List Char) : List Char :=
  cs.flatMap fun c => if formSet c then [c] else if c = ' ' then ['+'] else percentChar c

/-- A pair of a form. -/
def formPair (key value : String) : List Char :=
  formEncode key.toList ++ '=' :: formEncode value.toList

/-- Pairs of a form, parted by ampersands. -/
def formPairs (pairs : List (String × String)) : List Char :=
  List.intercalate ['&'] (pairs.map fun (k, v) => formPair k v)

/-- A text of a form without its encoding. -/
def formDecode (cs : List Char) : String :=
  String.ofList (Text.readUtf8 (percentDecode (cs.map fun c => if c = '+' then ' ' else c)))

/-- The parts of a text between occurrences of a character. -/
def splitOn (sep : Char → Bool) : List Char → List (List Char)
  | [] => [[]]
  | c :: rest =>
    if sep c then [] :: splitOn sep rest
    else
      match splitOn sep rest with
      | [] => [[c]]
      | part :: parts => (c :: part) :: parts

/-- The pairs of a form; empty parts hold none. -/
def readForm (cs : List Char) : List (String × String) :=
  ((splitOn (· = '&') cs).filter (!·.isEmpty)).map fun part =>
    (formDecode (part.takeWhile (· ≠ '=')), formDecode ((part.dropWhile (· ≠ '=')).drop 1))

end ZoneConsole.Url
