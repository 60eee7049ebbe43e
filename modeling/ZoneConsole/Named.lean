import ZoneConsole.Text.Blank

/-!
# Values with a name

Types of finitely many values, each with a name of its own. A name is read in
any mix of upper and lower case.
-/

namespace ZoneConsole

/-- A type with a list of its values and a name for each. -/
class Named (α : Type) where
  all : List α
  name : α → String

/-- The value of a name, in any case of its letters. -/
def Named.ofText? (α : Type) [Named α] (s : String) : Option α :=
  (Named.all (α := α)).find? fun a => Text.lower s == Named.name a

end ZoneConsole
