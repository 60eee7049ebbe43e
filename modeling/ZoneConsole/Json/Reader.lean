import ZoneConsole.Json.Number
import ZoneConsole.Json.Quoted

/-!
# Reading JSON texts

**`read`** makes the reading of the value at the start of a text, and answers
what follows it, unless a flaw ends the reading before that.
-/

namespace ZoneConsole.Json

/-- Is the character one that may stand between any two marks? -/
def isSpace (c : Char) : Bool := c = ' ' || c = '\n' || c = '\t' || c = '\r'

/-- A text without the spaces it starts with. -/
def skipSpaces (cs : List Char) : List Char := cs.dropWhile isSpace

/-- Reads the letters of a word after its first one. -/
def readWord (opening : Opening) (value : Reading) :
    List Char → List Char → Reading × Option (List Char)
  | [], cs => (value, some cs)
  | _ :: _, [] => (.broken opening .endInValue, none)
  | w :: ws, c :: cs =>
    if c = w then readWord opening value ws cs else (.broken opening .expectedWord, none)

mutual

/-- Reads the value at the start of a text. -/
def readValue : Nat → List Char → Reading × Option (List Char)
  | 0, _ => (.broken .nothing .nestedTooDeep, none)
  | fuel + 1, cs =>
    match skipSpaces cs with
    | [] => (.broken .nothing .endInValue, none)
    | 'n' :: rest => readWord .nullWord .null ['u', 'l', 'l'] rest
    | 't' :: rest => readWord .word (.bool true) ['r', 'u', 'e'] rest
    | 'f' :: rest => readWord .word (.bool false) ['a', 'l', 's', 'e'] rest
    | '"' :: rest => readQuoted [] none rest
    | '[' :: rest =>
      match skipSpaces rest with
      | [] => (.seq [] .cut, none)
      | ']' :: more => (.seq [] .closed, some more)
      | c :: more =>
        let (items, stop, left) := readItems fuel (c :: more)
        (.seq items stop, left)
    | '\x7b' :: rest =>
      match skipSpaces rest with
      | [] => (.map [] .cut, none)
      | '\x7d' :: more => (.map [] .closed, some more)
      | c :: more =>
        let (members, stop, left) := readMembers fuel (c :: more)
        (.map members stop, left)
    | c :: rest =>
      if c = '-' || Text.isDigit c then readNumber (c :: rest)
      else (.broken .nothing .expectedValue, none)

/-- Reads the items from one on, up to the end of their list. -/
def readItems : Nat → List Char → List Reading × SeqStop × Option (List Char)
  | 0, _ => ([], .cut, none)
  | fuel + 1, cs =>
    let (item, left) := readValue fuel cs
    match left.map skipSpaces with
    | none => ([item], .cut, none)
    | some [] => ([item], .cut, none)
    | some (']' :: more) => ([item], .closed, some more)
    | some (',' :: more) =>
      match skipSpaces more with
      | [] => ([item], .commaThenCut, none)
      | ']' :: _ => ([item], .commaThenEnd, none)
      | c :: more =>
        let (items, stop, left) := readItems fuel (c :: more)
        (item :: items, stop, left)
    | some (_ :: _) => ([item], .junk, none)

/-- Reads the members from one on, up to the end of their object. -/
def readMembers : Nat → List Char → List (Reading × Reading) × MapStop × Option (List Char)
  | 0, _ => ([], .cut, none)
  | fuel + 1, cs =>
    match cs with
    | '"' :: rest =>
      let (name, left) := readQuoted [] none rest
      match left.map skipSpaces with
      | none => ([(name, .broken .nothing .endInObject)], .cut, none)
      | some [] => ([(name, .broken .nothing .endInObject)], .cut, none)
      | some (':' :: rest) =>
        let (value, left) := readValue fuel rest
        match left.map skipSpaces with
        | none => ([(name, value)], .cut, none)
        | some [] => ([(name, value)], .cut, none)
        | some ('\x7d' :: more) => ([(name, value)], .closed, some more)
        | some (',' :: more) =>
          match skipSpaces more with
          | [] => ([(name, value)], .commaThenCut, none)
          | '\x7d' :: _ => ([(name, value)], .commaThenEnd, none)
          | c :: more =>
            let (members, stop, left) := readMembers fuel (c :: more)
            ((name, value) :: members, stop, left)
        | some (_ :: _) => ([(name, value)], .junk, none)
      | some (_ :: _) => ([(name, .broken .nothing .expectedColon)], .cut, none)
    | cs =>
      let (value, _) := readValue fuel cs
      ([(value, .broken .nothing .nameNotText)], .cut, none)

end

/-- The reading of the value at the start of a text, and what follows it. -/
def read (cs : List Char) : Reading × Option (List Char) := readValue (2 * cs.length + 2) cs

end ZoneConsole.Json
