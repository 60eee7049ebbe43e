import ZoneConsole.Json.Reader
import ZoneConsole.Json.Writer

/-!
# Layouts of JSON texts

The compact text of a tree and the one with an item or member a line differ in their spaces only.
A layout says where spaces stand, and both texts are what their layouts make of the tree.

* **`Layout`** — the spaces between the marks of a text, which are nothing but spaces.
* **`Layout.write`** — the text of a tree in a layout.
* **`compact_eq`**, **`pretty_eq`** — the two texts of a tree.
-/

namespace ZoneConsole.Json

/-- Where a text has spaces: before an item, a member or a closing mark at some level, and after
    a colon. -/
structure Layout where
  gap : Nat → List Char
  afterColon : List Char
  gap_spaces : ∀ level, ∀ c ∈ gap level, isSpace c = true
  afterColon_spaces : ∀ c ∈ afterColon, isSpace c = true

namespace Layout

/-- No spaces at all. -/
def tight : Layout where
  gap _ := []
  afterColon := []
  gap_spaces _ _ hc := absurd hc List.not_mem_nil
  afterColon_spaces _ hc := absurd hc List.not_mem_nil

/-- One item or member a line. -/
def lines : Layout where
  gap := newLine
  afterColon := [' ']
  gap_spaces := by
    intro level c hc
    rcases List.mem_cons.1 hc with rfl | hc
    · rfl
    · rw [List.eq_of_mem_replicate hc]
      rfl
  afterColon_spaces := by
    intro c hc
    rw [List.mem_singleton.1 hc]
    rfl

mutual

/-- A tree that stands at a level. -/
def write (l : Layout) (level : Nat) : Data → List Char
  | .null => "null".toList
  | .bool b => writeBool b
  | .num n => writeNumber n
  | .str s => writeQuoted s
  | .seq [] => ['[', ']']
  | .seq (item :: rest) => '[' :: (l.gap (level + 1) ++ writeItems l level (item :: rest))
  | .map [] => ['\x7b', '\x7d']
  | .map (member :: rest) => '\x7b' :: (l.gap (level + 1) ++ writeMembers l level (member :: rest))

/-- The items of a list at a level, from one of them on, and its closing bracket. -/
def writeItems (l : Layout) (level : Nat) : List Data → List Char
  | [] => [']']
  | [item] => write l (level + 1) item ++ (l.gap level ++ [']'])
  | item :: rest =>
    write l (level + 1) item ++ ',' :: (l.gap (level + 1) ++ writeItems l level rest)

/-- The members of an object at a level, from one of them on, and its closing brace. -/
def writeMembers (l : Layout) (level : Nat) : List (String × Data) → List Char
  | [] => ['\x7d']
  | [(name, value)] =>
    writeQuoted name ++ ':' :: (l.afterColon ++ (write l (level + 1) value ++
      (l.gap level ++ ['\x7d'])))
  | (name, value) :: rest =>
    writeQuoted name ++ ':' :: (l.afterColon ++ (write l (level + 1) value ++
      ',' :: (l.gap (level + 1) ++ writeMembers l level rest)))

end

end Layout

mutual

/-- **The compact text** is laid out without spaces. -/
theorem compact_eq : ∀ (level : Nat) (d : Data), compact d = Layout.tight.write level d
  | _, .null | _, .bool _ | _, .num _ | _, .str _ => rfl
  | _, .seq [] | _, .map [] => rfl
  | level, .seq (item :: rest) => congrArg ('[' :: ·) (compactItems_eq level (item :: rest))
  | level, .map (member :: rest) =>
      congrArg ('\x7b' :: ·) (compactMembers_eq level (member :: rest))

theorem compactItems_eq : ∀ (level : Nat) (items : List Data),
    compactItems items = Layout.tight.writeItems level items
  | _, [] => rfl
  | level, [item] => congrArg (· ++ [']']) (compact_eq (level + 1) item)
  | level, item :: next :: rest => by
      have hitem := compact_eq (level + 1) item
      have hrest := compactItems_eq level (next :: rest)
      show compact item ++ ',' :: compactItems (next :: rest) = _
      rw [hitem, hrest]
      rfl

theorem compactMembers_eq : ∀ (level : Nat) (members : List (String × Data)),
    compactMembers members = Layout.tight.writeMembers level members
  | _, [] => rfl
  | level, [(name, value)] =>
      congrArg (fun cs => writeQuoted name ++ ':' :: (cs ++ ['\x7d']))
        (compact_eq (level + 1) value)
  | level, (name, value) :: next :: rest => by
      have hvalue := compact_eq (level + 1) value
      have hrest := compactMembers_eq level (next :: rest)
      show writeQuoted name ++ ':' :: (compact value ++ ',' :: compactMembers (next :: rest)) = _
      rw [hvalue, hrest]
      rfl

end

mutual

/-- The text at a level is laid out in lines. -/
theorem prettyAt_eq : ∀ (level : Nat) (d : Data), prettyAt level d = Layout.lines.write level d
  | _, .null | _, .bool _ | _, .num _ | _, .str _ => rfl
  | _, .seq [] | _, .map [] => rfl
  -- the writer breaks the line before each item, the layout after the mark that precedes it
  | level, .seq (item :: rest) =>
      congrArg ('[' :: ·) (prettyItems_eq level (item :: rest) (List.cons_ne_nil _ _))
  | level, .map (member :: rest) =>
      congrArg ('\x7b' :: ·) (prettyMembers_eq level (member :: rest) (List.cons_ne_nil _ _))

theorem prettyItems_eq : ∀ (level : Nat) (items : List Data), items ≠ [] →
    prettyItems (level + 1) items =
      newLine (level + 1) ++ Layout.lines.writeItems level items
  | _, [], h => absurd rfl h
  | level, [item], _ => by
      show newLine (level + 1) ++ prettyAt (level + 1) item ++ newLine level ++ [']'] = _
      rw [prettyAt_eq (level + 1) item, List.append_assoc, List.append_assoc]
      rfl
  | level, item :: next :: rest, _ => by
      show newLine (level + 1) ++ prettyAt (level + 1) item ++
        ',' :: prettyItems (level + 1) (next :: rest) = _
      rw [prettyAt_eq (level + 1) item,
        prettyItems_eq level (next :: rest) (List.cons_ne_nil _ _), List.append_assoc]
      rfl

theorem prettyMembers_eq : ∀ (level : Nat) (members : List (String × Data)), members ≠ [] →
    prettyMembers (level + 1) members =
      newLine (level + 1) ++ Layout.lines.writeMembers level members
  | _, [], h => absurd rfl h
  | level, [(name, value)], _ => by
      show newLine (level + 1) ++ writeQuoted name ++ ':' :: ' ' :: prettyAt (level + 1) value ++
        newLine level ++ ['\x7d'] = _
      rw [prettyAt_eq (level + 1) value]
      simp only [List.append_assoc, List.cons_append]
      rfl
  | level, (name, value) :: next :: rest, _ => by
      show newLine (level + 1) ++ writeQuoted name ++ ':' :: ' ' :: prettyAt (level + 1) value ++
        ',' :: prettyMembers (level + 1) (next :: rest) = _
      rw [prettyAt_eq (level + 1) value,
        prettyMembers_eq level (next :: rest) (List.cons_ne_nil _ _)]
      simp only [List.append_assoc, List.cons_append]
      rfl

end

/-- **The text with an item or member a line** is laid out in lines. -/
theorem pretty_eq (d : Data) : pretty d = Layout.lines.write 0 d := prettyAt_eq 0 d

end ZoneConsole.Json
