import ZoneConsole.Reading
import ZoneConsole.Text.Quoted

/-!
# Complaints

What a decoder reports: a cause and the way to the place. The causes are the
same for a text and for the layers of settings, the wording is not, so each has
its own function: `Complaint.message` for a text and `Problem.settingsMessage`
for settings.
-/

namespace ZoneConsole

/-- What stood where something else was expected. -/
inductive Found
  | null
  | bool (b : Bool)
  | num (n : Number)
  | str (s : String)
  | seq
  | map
  deriving DecidableEq, Repr

/-- Why a reading is not what a decoder expects. -/
inductive Problem
  | fault (f : Fault)
  | wrongType (found : Found) (expected : String)
  | wrongValue (found : Found) (expected : String)
  | wrongLength (length : Nat) (expected : String)
  | notVariant (found : Found) (expected : String)
  | unknownVariant (name : String) (known : List String)
  | missingField (name : String)
  | duplicateField (name : String)
  | malformed (text : String)
  deriving DecidableEq, Repr

/-- A problem and the names that lead to its place. -/
structure Complaint where
  path : List String
  problem : Problem
  deriving DecidableEq, Repr

/-- The outcome of decoding. -/
abbrev Decoded (α : Type) := Except Complaint α

/-- Fails with a problem at this very place. -/
def complain (problem : Problem) : Decoded α := .error ⟨[], problem⟩

/-- What is found under a name has its complaints there. -/
def Decoded.under (name : String) : Decoded α → Decoded α
  | .ok a => .ok a
  | .error c => .error { c with path := name :: c.path }

/-- Lists the known names: two are joined by a word, more are enumerated. -/
def knownNames : List String → String
  | [a, b] => "`" ++ a ++ "` or `" ++ b ++ "`"
  | names =>
    match names with
    | [] => "there are no variants"
    | [a] => "`" ++ a ++ "`"
    | _ => "one of " ++ String.intercalate ", " (names.map fun n => "`" ++ n ++ "`")

/-- The text of a number that stands in a text. -/
def Number.message : Number → String
  | .unsigned n => "integer `" ++ String.ofList (Text.decimal n) ++ "`"
  | .signed i => "integer `" ++ String.ofList (Text.decimalInt i) ++ "`"
  | .real x => "floating point `" ++ String.ofList x.scientific ++ "`"

/-- The text of a number that stands in settings. -/
def Number.settingsMessage : Number → String
  | .unsigned n => "unsigned int `" ++ String.ofList (Text.decimal n) ++ "`"
  | .signed i => "signed int `" ++ String.ofList (Text.decimalInt i) ++ "`"
  | .real x => "float `" ++ String.ofList x.plain ++ "`"

/-- The text of what was found in a text. -/
def Found.message : Found → String
  | null => "null"
  | bool b => "boolean `" ++ (if b then "true" else "false") ++ "`"
  | num n => n.message
  | str s => "string " ++ Text.quoted s
  | seq => "sequence"
  | map => "map"

/-- The text of what was found in settings. -/
def Found.settingsMessage : Found → String
  | null => "unit"
  | bool b => "bool " ++ (if b then "true" else "false")
  | num n => n.settingsMessage
  | str s => "string " ++ Text.quoted s
  | seq => "sequence"
  | map => "map"

namespace Problem

/-- The text of a problem with a text. -/
def message : Problem → String
  | fault f => f.message
  | wrongType found expected => "invalid type: " ++ found.message ++ ", expected " ++ expected
  | wrongValue found expected => "invalid value: " ++ found.message ++ ", expected " ++ expected
  | wrongLength n expected =>
    "invalid length " ++ String.ofList (Text.decimal n) ++ ", expected " ++ expected
  | notVariant _ _ => Fault.expectedValue.message
  | unknownVariant name known =>
    "unknown variant `" ++ name ++ "`, expected " ++ knownNames known
  | missingField name => "missing field `" ++ name ++ "`"
  | duplicateField name => "duplicate field `" ++ name ++ "`"
  | malformed text => text

/-- The text of a problem with settings. -/
def settingsMessage : Problem → String
  | wrongType found expected | notVariant found expected =>
    "invalid type: found " ++ found.settingsMessage ++ ", expected " ++ expected
  | wrongValue found expected =>
    "invalid value " ++ found.settingsMessage ++ ", expected " ++ expected
  | unknownVariant name known =>
    "unknown variant: found `" ++ name ++ "`, expected `" ++ knownNames known ++ "`"
  | p => p.message

end Problem

/-- The class of a complaint about a text: it ended too early, it violates the
    grammar, or its values are not the expected ones. -/
inductive ComplaintClass
  | ending | grammar | values
  deriving DecidableEq, Repr

/-- The class of a problem. -/
def Problem.classOf : Problem → ComplaintClass
  | fault f => if f.isEnd then .ending else .grammar
  | notVariant _ _ => .grammar
  | _ => .values

/-- The text of a complaint about a text. -/
def Complaint.message (c : Complaint) : String := c.problem.message

namespace Reading

/-- What a reading shows where something else was expected; a flaw shows itself. -/
def found : Reading → Except Fault Found
  | null => .ok .null
  | bool b => .ok (.bool b)
  | num n => .ok (.num n)
  | str s => .ok (.str s)
  | seq _ _ => .ok .seq
  | map _ _ => .ok .map
  | flawed _ asked _ => .error asked

/-- The complaint about a reading of the wrong type. -/
def wrongType (r : Reading) (expected : String) : Decoded α :=
  match r.found with
  | .ok found => complain (.wrongType found expected)
  | .error f => complain (.fault f)

end Reading

end ZoneConsole
