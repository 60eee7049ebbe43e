import ZoneConsole.Data

/-!
# Readings

A `Reading` is the tree of a text as far as the text could be read. Where the
grammar is violated stands a flaw, and nothing after a flaw was looked at,
unless the flaw can be passed over. A decoder walks the tree in the order of
the text, so it meets what is wrong with the text and what is wrong with the
values in the order in which they stand there, and reports the first.

Two walks meet different complaints at one place. A value is *asked for* when a
decoder needs it, and *passed over* when it belongs to a member nobody knows.

* **`Reading.passOver`** is the second walk; it answers the first fault.
* **`Reading.ofData`** is the reading of a tree without flaws, and
  **`Reading.ofSettings`** the one of a layer of settings, where wholes have no
  written end to check and names come in sorted order.
-/

namespace ZoneConsole

/-- What can be wrong with the grammar of a text. -/
inductive Fault
  | endInValue | endInText | endInList | endInObject
  | expectedValue | expectedWord | expectedColon | expectedListComma | expectedObjectComma
  | nameNotText | trailingComma | trailingCharacters
  | invalidNumber | numberOutOfRange
  | invalidEscape | controlCharacter | loneSurrogate | endOfSurrogate
  | nestedTooDeep
  deriving DecidableEq, Repr, Inhabited

namespace Fault

/-- The text of the complaint. -/
def message : Fault → String
  | endInValue => "EOF while parsing a value"
  | endInText => "EOF while parsing a string"
  | endInList => "EOF while parsing a list"
  | endInObject => "EOF while parsing an object"
  | expectedValue => "expected value"
  | expectedWord => "expected ident"
  | expectedColon => "expected `:`"
  | expectedListComma => "expected `,` or `]`"
  | expectedObjectComma => "expected `,` or `\x7d`"
  | nameNotText => "key must be a string"
  | trailingComma => "trailing comma"
  | trailingCharacters => "trailing characters"
  | invalidNumber => "invalid number"
  | numberOutOfRange => "number out of range"
  | invalidEscape => "invalid escape"
  | controlCharacter => "control character (\\u0000-\\u001F) found while parsing a string"
  | loneSurrogate => "lone leading surrogate in hex escape"
  | endOfSurrogate => "unexpected end of hex escape"
  | nestedTooDeep => "recursion limit exceeded"

/-- Did the text end too early? -/
def isEnd : Fault → Bool
  | endInValue | endInText | endInList | endInObject => true
  | _ => false

end Fault

/-- How a value that could not be read begins. -/
inductive Opening
  | nothing | nullWord | word | number | text
  deriving DecidableEq, Repr

/-- How a sequence stops after its last item. A loose one has no written end. -/
inductive SeqStop
  | closed | loose | cut | commaThenEnd | commaThenCut | junk
  deriving DecidableEq, Repr

/-- How an object stops after its last member. A loose one has no written end. -/
inductive MapStop
  | closed | loose | cut | commaThenEnd | commaThenCut | junk
  deriving DecidableEq, Repr

/-- The complaint when one more item is asked for. -/
def SeqStop.asked : SeqStop → Option Fault
  | closed | loose => none
  | cut => some .endInList
  | commaThenEnd => some .trailingComma
  | commaThenCut => some .endInValue
  | junk => some .expectedListComma

/-- The complaint when the end is asked for. -/
def SeqStop.ended : SeqStop → Option Fault
  | closed | loose => none
  | cut => some .endInList
  | commaThenEnd => some .trailingComma
  | commaThenCut | junk => some .trailingCharacters

/-- The complaint when the sequence is passed over. -/
def SeqStop.passedOver : SeqStop → Option Fault
  | closed | loose => none
  | cut => some .endInList
  | commaThenEnd => some .expectedValue
  | commaThenCut => some .endInValue
  | junk => some .expectedListComma

/-- The complaint when one more member is asked for. -/
def MapStop.asked : MapStop → Option Fault
  | closed | loose => none
  | cut => some .endInObject
  | commaThenEnd => some .trailingComma
  | commaThenCut => some .endInValue
  | junk => some .expectedObjectComma

/-- The complaint when the object is passed over. -/
def MapStop.passedOver : MapStop → Option Fault
  | closed | loose => none
  | cut | commaThenCut => some .endInObject
  | commaThenEnd => some .nameNotText
  | junk => some .expectedObjectComma

/-- A tree of values as far as it could be read. A member is a pair of readings,
    its name and its value. A flaw says how the value begins, the complaint when
    it is asked for, and the complaint when it is passed over, if there is one. -/
inductive Reading
  | null
  | bool (b : Bool)
  | num (n : Number)
  | str (s : String)
  | seq (items : List Reading) (stop : SeqStop)
  | map (members : List (Reading × Reading)) (stop : MapStop)
  | flawed (opening : Opening) (asked : Fault) (passedOver : Option Fault)
  deriving Repr, Inhabited

namespace Reading

/-- A flaw after which nothing can be read. -/
def broken (opening : Opening) (fault : Fault) : Reading := flawed opening fault (some fault)

/-- The complaint about a reading that stands where a name is passed over. -/
def nameFault : Reading → Option Fault
  | str _ => none
  | flawed .text _ passedOver => passedOver
  | _ => some .nameNotText

mutual

/-- The first complaint when the reading is passed over. -/
def passOver : Reading → Option Fault
  | seq items stop => (passOverItems items).or stop.passedOver
  | map members stop => (passOverMembers members).or stop.passedOver
  | flawed _ _ passedOver => passedOver
  | null | bool _ | num _ | str _ => none

/-- The first complaint in a list of items. -/
def passOverItems : List Reading → Option Fault
  | [] => none
  | item :: rest => (passOver item).or (passOverItems rest)

/-- The first complaint in a list of members. -/
def passOverMembers : List (Reading × Reading) → Option Fault
  | [] => none
  | (name, value) :: rest =>
    ((nameFault name).or (passOver value)).or (passOverMembers rest)

end

mutual

/-- The reading of a tree that is written without flaws. -/
def ofData : Data → Reading
  | .null => null
  | .bool b => bool b
  | .num n => num n
  | .str s => str s
  | .seq items => seq (ofItems items) .closed
  | .map members => map (ofMembers members) .closed

/-- The readings of items. -/
def ofItems : List Data → List Reading
  | [] => []
  | item :: rest => ofData item :: ofItems rest

/-- The readings of members. -/
def ofMembers : List (String × Data) → List (Reading × Reading)
  | [] => []
  | (name, value) :: rest => (str name, ofData value) :: ofMembers rest

end

mutual

/-- The reading of a tree of settings whose members are sorted by name. -/
def ofSettings : Data → Reading
  | .null => null
  | .bool b => bool b
  | .num n => num n
  | .str s => str s
  | .seq items => seq (ofSettingItems items) .loose
  | .map members => map (ofSettingMembers members) .loose

/-- The readings of items of settings. -/
def ofSettingItems : List Data → List Reading
  | [] => []
  | item :: rest => ofSettings item :: ofSettingItems rest

/-- The readings of members of settings. -/
def ofSettingMembers : List (String × Data) → List (Reading × Reading)
  | [] => []
  | (name, value) :: rest => (str name, ofSettings value) :: ofSettingMembers rest

end

end Reading

end ZoneConsole
