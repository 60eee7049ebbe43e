import ZoneConsole.Reading
import ZoneConsole.Text.Digits
import ZoneConsole.Text.Utf8

/-!
# Quoted texts in JSON

**`escape`** writes a text between its quotes and **`readQuoted`** reads one.
Quotes, backslashes and controls are escaped, and all else stands for itself.
A code of four digits may be half of a pair of surrogates; a half that stands
alone spoils the text, but a text that nobody asks for may be passed over.
-/

namespace ZoneConsole.Json

/-- A character as it is written between the quotes. -/
def escapeChar (c : Char) : List Char :=
  if c = '"' then ['\\', '"']
  else if c = '\\' then ['\\', '\\']
  else if c.toNat = 0x08 then ['\\', 'b']
  else if c = '\t' then ['\\', 't']
  else if c = '\n' then ['\\', 'n']
  else if c.toNat = 0x0c then ['\\', 'f']
  else if c = '\r' then ['\\', 'r']
  else if c.toNat < 0x20 then
    ['\\', 'u', '0', '0', Text.hexDigit (c.toNat / 16), Text.hexDigit (c.toNat % 16)]
  else [c]

/-- A text between its quotes. -/
def escape (cs : List Char) : List Char := cs.flatMap escapeChar

/-- A text in quotes. -/
def writeQuoted (s : String) : List Char := '"' :: (escape s.toList ++ ['"'])

/-- The character of an escape of one letter. -/
def shortEscape? (c : Char) : Option Char :=
  match c with
  | '"' | '\\' | '/' => some c
  | 'b' => some '\x08'
  | 'f' => some '\x0c'
  | 'n' => some '\n'
  | 'r' => some '\r'
  | 't' => some '\t'
  | _ => none

/-- The value of four hexadecimal digits. -/
def hexUnit? (a b c d : Char) : Option Nat :=
  match Text.hexValue? a, Text.hexValue? b, Text.hexValue? c, Text.hexValue? d with
  | some a, some b, some c, some d => some (((a * 16 + b) * 16 + c) * 16 + d)
  | _, _, _, _ => none

/-- The fault of a text that stops inside four digits: too short, or no digits. -/
def digitsFault (rest : List Char) : Fault :=
  if (Text.utf8 rest).length < 4 then .endInText else .invalidEscape

/-- The reading of a text that stops with a fault; a text spoilt before that shows
    the earlier fault when it is asked for. -/
def brokenText (spoilt : Option Fault) (f : Fault) : Reading × Option (List Char) :=
  (.flawed .text (spoilt.getD f) (some f), none)

/-- Reads a text after its opening quote. `acc` holds the characters read, the
    last one first, and `spoilt` the first fault that can be passed over. -/
def readQuoted (acc : List Char) (spoilt : Option Fault) :
    List Char → Reading × Option (List Char)
  | [] => brokenText spoilt .endInText
  | '"' :: rest =>
    match spoilt with
    | none => (.str (String.ofList acc.reverse), some rest)
    | some f => (.flawed .text f none, some rest)
  | '\\' :: rest =>
    match rest with
    | [] => brokenText spoilt .endInText
    | 'u' :: a :: b :: c :: d :: more =>
      match hexUnit? a b c d with
      | none => brokenText spoilt (digitsFault (a :: b :: c :: d :: more))
      | some n =>
        if 0xdc00 ≤ n ∧ n ≤ 0xdfff then readQuoted acc (spoilt.or (some .loneSurrogate)) more
        else if 0xd800 ≤ n ∧ n ≤ 0xdbff then
          match more with
          | '\\' :: 'u' :: e :: f :: g :: h :: after =>
            match hexUnit? e f g h with
            | none => brokenText spoilt (digitsFault (e :: f :: g :: h :: after))
            | some m =>
              if 0xdc00 ≤ m ∧ m ≤ 0xdfff then
                readQuoted (Char.ofNat (0x10000 + (n - 0xd800) * 0x400 + (m - 0xdc00)) :: acc)
                  spoilt after
              else readQuoted acc (spoilt.or (some .loneSurrogate)) after
          | '\\' :: 'u' :: short => brokenText spoilt (digitsFault short)
          | '\\' :: [] => brokenText spoilt .endInText
          | [] => brokenText spoilt .endInText
          | c :: after =>
            readQuoted acc (spoilt.or (some .endOfSurrogate)) (c :: after)
        else readQuoted (Char.ofNat n :: acc) spoilt more
    | 'u' :: short => brokenText spoilt (digitsFault short)
    | e :: more =>
      match shortEscape? e with
      | some c => readQuoted (c :: acc) spoilt more
      | none => brokenText spoilt .invalidEscape
  | c :: rest =>
    if c.toNat < 0x20 then brokenText spoilt .controlCharacter
    else readQuoted (c :: acc) spoilt rest

end ZoneConsole.Json
