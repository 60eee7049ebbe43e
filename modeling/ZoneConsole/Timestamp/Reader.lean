import ZoneConsole.Timestamp
import ZoneConsole.Text.Blank

/-!
# Reading timestamps

The reader is generous: blanks may stand before each number and each mark, the
day and the time are parted by a letter of either case or a blank, numbers may be
short, and the offset is a letter, a word or signed hours and minutes. Each
number is checked against its own range when it is read, and the day against the
calendar at the end, when the offset is taken off.
-/

namespace ZoneConsole

open Text

/-- Why a text is no timestamp. -/
inductive TimestampFault
  | tooShort | invalid | outOfRange | tooLong | impossible
  deriving DecidableEq, Repr

/-- The text of the complaint. -/
def TimestampFault.message : TimestampFault → String
  | tooShort => "premature end of input"
  | invalid => "input contains invalid characters"
  | outOfRange => "input is out of range"
  | tooLong => "trailing input"
  | impossible => "no possible date and time matching input"

namespace Timestamp

/-- The outcome of reading a part: what it says and what follows it. -/
abbrev Part (α : Type) := Except TimestampFault (α × List Char)

/-- Takes digits, of which there has to be one. -/
def number (digits : List Char) (rest cs : List Char) : Part Nat :=
  match digits with
  | [] => .error (if cs.isEmpty then .tooShort else .invalid)
  | ds =>
    let n := decimalValue ds
    if n < 0x8000000000000000 then .ok (n, rest) else .error .outOfRange

/-- A number of at most `width` digits. -/
def shortNumber (width : Nat) (cs : List Char) : Part Nat :=
  let digits := (cs.take width).takeWhile isDigit
  number digits (cs.drop digits.length) cs

/-- A number of any length. -/
def longNumber (cs : List Char) : Part Nat :=
  number (cs.takeWhile isDigit) (cs.dropWhile isDigit) cs

/-- A number of at most two digits between two bounds, after blanks. -/
def field (low high : Nat) (cs : List Char) : Part Nat :=
  match shortNumber 2 (cs.dropWhile isBlank) with
  | .error e => .error e
  | .ok (n, rest) => if low ≤ n ∧ n ≤ high then .ok (n, rest) else .error .outOfRange

/-- A year, after blanks: four digits, or any number of them after a sign. -/
def yearField (cs : List Char) : Part Int :=
  let limited (sign : Int) : Part Nat → Part Int
    | .error e => .error e
    | .ok (n, rest) =>
      let year := sign * n
      if -0x80000000 ≤ year ∧ year < 0x80000000 then .ok (year, rest) else .error .outOfRange
  match cs.dropWhile isBlank with
  | '-' :: rest => limited (-1) (longNumber rest)
  | '+' :: rest => limited 1 (longNumber rest)
  | rest => limited 1 (shortNumber 4 rest)

/-- A mark, after blanks. -/
def mark (c : Char) (cs : List Char) : Except TimestampFault (List Char) :=
  match cs.dropWhile isBlank with
  | [] => .error .tooShort
  | d :: rest => if d = c then .ok rest else .error .invalid

/-- What parts the day from the time. -/
def divider : List Char → Except TimestampFault (List Char)
  | [] => .error .tooShort
  | c :: rest => if c = 't' ∨ c = 'T' ∨ c = ' ' then .ok rest else .error .invalid

/-- The fraction of a second in nanoseconds; digits beyond the ninth are dropped. -/
def fraction (cs : List Char) : Part Nat :=
  match cs with
  | '.' :: rest =>
    match shortNumber 9 rest with
    | .error e => .error e
    | .ok (n, after) =>
      .ok (n * Nat.pow 10 (9 - (rest.length - after.length)), after.dropWhile isDigit)
  | _ => .ok (0, cs)

/-- Two digits. -/
def twoDigits (cs : List Char) : Option (Char × Char × List Char) :=
  match cs with
  | a :: b :: rest => if isDigit a && isDigit b then some (a, b, rest) else none
  | _ => none

/-- Is the text too short for two digits? A character beyond `U+007F` counts for
    more than one place. -/
def lacksTwo : List Char → Bool
  | [] => true
  | [c] => c.toNat < 0x80
  | _ => false

/-- The offset from universal time in minutes: a letter, or signed hours and
    minutes with colons and blanks between them. -/
def offset (cs : List Char) : Part Int :=
  let signed (sign : Int) (cs : List Char) : Part Int :=
    match twoDigits cs with
    | none => .error (if lacksTwo cs then .tooShort else .invalid)
    | some (a, b, rest) =>
      let rest := rest.dropWhile fun c => c = ':' || isBlank c
      match twoDigits rest with
      | none => .error (if lacksTwo rest then .tooShort else .invalid)
      | some (m, n, rest) =>
        if '5' < m then .error .outOfRange
        else
          let minutes := decimalValue [a, b] * 60 + decimalValue [m, n]
          .ok (sign * minutes, rest)
  match cs with
  | [] => .error .tooShort
  | c :: rest =>
    if c = 'Z' ∨ c = 'z' then .ok (0, rest)
    else if c = '+' then signed 1 rest
    else if c = '-' ∨ c = '\u2212' then signed (-1) rest
    else .error .invalid

/-- The offset, or the word for universal time in any case. -/
def zone (cs : List Char) : Part Int :=
  match cs with
  | a :: b :: c :: rest =>
    if lowerAscii a = 'u' ∧ lowerAscii b = 't' ∧ lowerAscii c = 'c' then .ok (0, rest)
    else offset cs
  | _ => offset cs

/-- The moment at which clocks with an offset show the fields. -/
def ofLocal (day : Day) (hour minute second nano : Nat) (offset : Int) :
    Except TimestampFault Timestamp :=
  if !day.isValid then .error .outOfRange
  else if 1440 ≤ offset.natAbs then .error .outOfRange
  else
    let minutes := (hour * 60 + minute : Nat) - offset
    let (day, minutes) :=
      if minutes < 0 then (day.previous, minutes + 1440)
      else if 1440 ≤ minutes then (day.next, minutes - 1440)
      else (day, minutes)
    match ofFields? day (minutes.toNat / 60) (minutes.toNat % 60) second nano with
    | some t => .ok t
    | none => .error .impossible

/-- Reads a whole text as a timestamp. -/
def read (cs : List Char) : Except TimestampFault Timestamp := do
  let (year, cs) ← yearField cs
  let cs ← mark '-' cs
  let (month, cs) ← field 1 12 cs
  let cs ← mark '-' cs
  let (day, cs) ← field 1 31 cs
  let cs ← divider cs
  let (hour, cs) ← field 0 23 cs
  let cs ← mark ':' cs
  let (minute, cs) ← field 0 59 cs
  let cs ← mark ':' cs
  let (second, cs) ← field 0 60 cs
  let (nano, cs) ← fraction cs
  let (minutes, cs) ← zone (cs.dropWhile isBlank)
  if cs.all isBlank then ofLocal ⟨year, month, day⟩ hour minute second nano minutes
  else .error .tooLong

end Timestamp

end ZoneConsole
