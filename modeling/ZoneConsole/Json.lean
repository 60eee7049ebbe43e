import ZoneConsole.Codec.Record
import ZoneConsole.Json.Reader
import ZoneConsole.Json.Writer
import ZoneConsole.Members

/-!
# JSON texts of values

**`Json.decode`** reads a whole text as a value of a codec; the first complaint
in the order of the text is reported, and what follows the value is one.
**`Json.encode`** writes a value as compact text. **`Json.tree`** reads a whole
text as a tree, of at most a given depth.
-/

namespace ZoneConsole

namespace Reading

mutual

/-- The tree of a reading whose wholes are nested at most `depth` deep. Of members
    with one name the last counts, and members are sorted by name. -/
def tree (depth : Nat) : Reading → Except Fault Data
  | null => .ok .null
  | bool b => .ok (.bool b)
  | num n => .ok (.num n)
  | str s => .ok (.str s)
  | flawed _ asked _ => .error asked
  | seq items stop =>
    match depth with
    | 0 => .error .nestedTooDeep
    | depth + 1 =>
      match treeItems depth items with
      | .error f => .error f
      | .ok ds =>
        match stop.asked with
        | some f => .error f
        | none => .ok (.seq ds)
  | map members stop =>
    match depth with
    | 0 => .error .nestedTooDeep
    | depth + 1 =>
      match treeMembers depth members with
      | .error f => .error f
      | .ok ds =>
        match stop.asked with
        | some f => .error f
        | none => .ok (.map (sortMembers ds))

/-- The trees of items. -/
def treeItems (depth : Nat) : List Reading → Except Fault (List Data)
  | [] => .ok []
  | item :: rest =>
    match tree depth item with
    | .error f => .error f
    | .ok d => (treeItems depth rest).map (d :: ·)

/-- The trees of members. -/
def treeMembers (depth : Nat) : List (Reading × Reading) → Except Fault (List (String × Data))
  | [] => .ok []
  | (.str name, value) :: rest =>
    match tree depth value with
    | .error f => .error f
    | .ok d => (treeMembers depth rest).map ((name, d) :: ·)
  | (.flawed .text asked _, _) :: _ => .error asked
  | _ :: _ => .error .nameNotText

end

end Reading

namespace Codec

/-- Trees of values, nested at most `depth` deep. -/
def anything (depth : Nat) : Codec Data where
  encode d := d
  decode r :=
    match r.tree depth with
    | .ok d => .ok d
    | .error f => complain (.fault f)

end Codec

namespace Json

/-- Reads a whole text as a value. -/
def decode (c : Codec α) (s : String) : Decoded α :=
  let (reading, left) := read s.toList
  match c.decode reading with
  | .error e => .error e
  | .ok a =>
    match left.map skipSpaces with
    | some [] => .ok a
    | some (_ :: _) => complain (.fault .trailingCharacters)
    | none => complain (.fault .endInValue)

/-- The compact text of a value. -/
def encode (c : Codec α) (a : α) : String := String.ofList (compact (c.encode a))

end Json

end ZoneConsole
