import ZoneConsole.Binary64

/-!
# Structured values

`Data` is the one tree of values that the text formats of this library share:
JSON bodies, YAML listings, the settings file and the layers of settings. An
object keeps its members in the order in which they were given.
-/

namespace ZoneConsole

/-- A number as a text or a layer of settings states it. -/
inductive Number
  | unsigned (n : Nat)
  | signed (i : Int)
  | real (x : Binary64)
  deriving DecidableEq, Repr, Inhabited

/-- A tree of values. -/
inductive Data
  | null
  | bool (b : Bool)
  | num (n : Number)
  | str (s : String)
  | seq (items : List Data)
  | map (members : List (String × Data))
  deriving BEq, Repr, Inhabited

namespace Data

/-- A natural number. -/
def nat (n : Nat) : Data := num (.unsigned n)

/-- The member of an object with a name, the last one of that name. -/
def get? (name : String) : Data → Option Data
  | map members => (members.reverse.find? (·.1 == name)).map (·.2)
  | _ => none

end Data

end ZoneConsole
