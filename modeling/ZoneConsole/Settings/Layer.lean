import ZoneConsole.Data
import ZoneConsole.Members

/-!
# Layers of settings

Settings come in layers, the later ones over the earlier ones. Where both layers
have a table the two are joined member by member, at every depth; anything else
is replaced as a whole. The members of a joined table are sorted by name.
-/

namespace ZoneConsole.Data

/-- The members of a table; anything else has none. -/
def members : Data → List (String × Data)
  | map ms => ms
  | _ => []

mutual

/-- A layer over another one. -/
def overlay (low : Data) : Data → Data
  | map ms => .map (membersOver low.members ms)
  | seq items => .seq (itemsOver items)
  | null => null
  | bool b => bool b
  | num n => num n
  | str s => str s

/-- Members over those of another layer. -/
def membersOver (low : List (String × Data)) : List (String × Data) → List (String × Data)
  | [] => low
  | (name, value) :: rest =>
    membersOver (insertMember name (overlay ((lookup? name low).getD null) value) low) rest

/-- Items, which no other layer reaches; the tables in them are sorted as well. -/
def itemsOver : List Data → List Data
  | [] => []
  | item :: rest => overlay null item :: itemsOver rest

end

/-- A layer of a single value, under a path. -/
def nest (value : Data) : List String → Data
  | [] => value
  | name :: rest => map [(name, nest value rest)]

/-- Layers on top of each other, the lowest first. -/
def layers (ds : List Data) : Data := ds.foldl overlay (map [])

end ZoneConsole.Data
