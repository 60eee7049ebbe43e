/-!
# Values under names

Lists of pairs of a name and a value. The first pair of a name counts, and
**`put`** leaves just that one. **`insertMember`** keeps a list sorted by name
sorted, and **`sortMembers`** sorts one.
-/

namespace ZoneConsole

/-- The value of a name in a table, the first one of that name. -/
def lookup? (name : String) : List (String × α) → Option α
  | [] => none
  | (n, a) :: rest => if n = name then some a else lookup? name rest

/-- A table without a name. -/
def without (name : String) (table : List (String × α)) : List (String × α) :=
  table.filter fun entry => entry.1 ≠ name

/-- A table with a value under a name, in place of one of the same name. -/
def put (name : String) (a : α) (table : List (String × α)) : List (String × α) :=
  (name, a) :: without name table

/-- Puts a member into a list sorted by name, in place of one of the same name. -/
def insertMember (name : String) (value : α) : List (String × α) → List (String × α)
  | [] => [(name, value)]
  | (n, v) :: rest =>
    if name < n then (name, value) :: (n, v) :: rest
    else if name = n then (name, value) :: rest
    else (n, v) :: insertMember name value rest

/-- The members sorted by name; of several with one name the last. -/
def sortMembers (members : List (String × α)) : List (String × α) :=
  members.foldl (fun acc (n, v) => insertMember n v acc) []

end ZoneConsole
