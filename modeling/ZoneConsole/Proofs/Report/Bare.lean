import ZoneConsole.Proofs.Report.Sequences
import ZoneConsole.Proofs.Report.Table

/-!
# What tables show

What is left of a table without the sequences that colour it, and without blanks and the dashes of
its rules.  That is what its cells show, line by line and each in its column; how wide the columns
are does not matter.

* **`ink`**, **`bare`** — a text without blanks and dashes, and without sequences as well.
* **`bare_joinLines`**, **`bare_rule`**, **`bare_rowLines`** — lines, rules and rows.
* **`bare_drawTable`** — tables.
-/

namespace ZoneConsole

open Text

/-- A text without blanks and the marks of rules. -/
def ink (cs : List Char) : List Char := cs.filter fun c => c ≠ ' ' && c ≠ '─'

theorem ink_append (a b : List Char) : ink (a ++ b) = ink a ++ ink b := List.filter_append ..

theorem ink_cons (c : Char) (cs : List Char) : ink (c :: cs) = ink [c] ++ ink cs :=
  ink_append [c] cs

theorem ink_dashes (n : Nat) : ink (List.replicate n '─') = [] := by
  rw [ink, List.filter_replicate]
  rfl

/-- A text without its sequences, blanks and rules. -/
def bare (cs : List Char) : List Char := ink (uncoloured cs)

theorem bare_append {rest : List Char} (h : Stops inSequence rest) (cs : List Char) :
    bare (cs ++ rest) = bare cs ++ bare rest := by
  rw [bare, uncoloured_append h, ink_append]
  rfl

/-- A mark other than an escape stands by itself. -/
theorem bare_cons {c : Char} (h : escape ≠ c) (rest : List Char) :
    bare (c :: rest) = ink [c] ++ bare rest := by
  have hstep : uncoloured (c :: rest) = c :: uncoloured rest :=
    uncoloured_append_of_plain (show escape ∉ [c] by simpa using h) rest
  rw [bare, hstep]
  exact ink_append [c] _

theorem stops_below (below : List (List Char)) :
    Stops inSequence (below.flatMap ('\n' :: ·)) := by
  cases below with
  | nil => exact stops_nil _
  | cons line rest => exact stops_cons rfl _

/-- **Lines are bared one by one.** -/
theorem bare_joinLines (lines : List (List Char)) :
    bare (joinLines lines) = joinLines (lines.map bare) := by
  have hbelow : ∀ below : List (List Char), bare (below.flatMap ('\n' :: ·)) =
      (below.map bare).flatMap ('\n' :: ·) := by
    intro below
    induction below with
    | nil => rfl
    | cons line rest ih =>
        have hline : bare ('\n' :: line) = '\n' :: bare line := bare_cons (by decide) line
        rw [List.flatMap_cons, bare_append (stops_below rest), ih, hline]
        rfl
  cases lines with
  | nil => rfl
  | cons line rest =>
      rw [List.map_cons, joinLines_cons, joinLines_cons, ← hbelow, bare_append (stops_below rest)]

/-- A rule tells how many columns there are when its dashes are left out, and nothing else. -/
theorem bare_rule {left cross right : Char} (hleft : escape ≠ left) (hcross : escape ≠ cross)
    (hright : escape ≠ right) {ws ws' : List Nat} (h : ws.length = ws'.length) :
    bare (rule left cross right ws) = bare (rule left cross right ws') := by
  have hbare : ∀ ws : List Nat, bare (rule left cross right ws) = ink (rule left cross right ws) :=
    fun ws => congrArg ink (uncoloured_of_plain
      (notMem_rule ws hleft hcross hright (by decide)))
  -- every column after the first leaves its crossing, so their number is all that is left of them
  have hcolumns : ∀ ws : List Nat, ink (ws.flatMap fun w => cross :: List.replicate (w + 2) '─') =
      (List.replicate ws.length (ink [cross])).flatten := by
    intro ws
    induction ws with
    | nil => rfl
    | cons w rest ih =>
        rw [List.flatMap_cons, ink_append, ih, ink_cons, ink_dashes, List.append_nil]
        rfl
  have hcons : ∀ (w : Nat) (ws : List Nat), ink (rule left cross right (w :: ws)) =
      ink [left] ++ ((List.replicate ws.length (ink [cross])).flatten ++ ink [right]) := by
    intro w ws
    rw [rule_cons, ink_cons, ink_append, ink_dashes, ink_append, hcolumns, List.nil_append]
  rw [hbare, hbare]
  cases ws with
  | nil => rw [List.length_eq_zero_iff.1 h.symm]
  | cons w ws =>
      obtain ⟨w', ws', rfl⟩ := List.exists_cons_of_length_eq_add_one h.symm
      rw [hcons, hcons, Nat.add_right_cancel h]

/-- The lines of a cell without sequences and blanks. -/
def bareCell (cell : String) : List (List Char) := (cellLines cell).map bare

/-- The lines of a row, from what its cells show. -/
def bareRow (cells : List (List (List Char))) : List (List Char) :=
  let height := (cells.map (·.length)).foldl max 0
  (List.range height).map fun k => '│' :: cells.flatMap fun lines => (lines[k]?).getD [] ++ ['│']

/-- Blanks do not show. -/
theorem bare_blanks (n : Nat) (rest : List Char) :
    bare (List.replicate n ' ' ++ rest) = bare rest := by
  induction n with
  | zero => rfl
  | succ n ih => exact (bare_cons (by decide) _).trans ih

/-- A cell shows its text, however wide the column is. -/
theorem bare_padCell (width : Nat) (line rest : List Char) :
    bare (padCell width line ++ '│' :: rest) = bare line ++ '│' :: bare rest := by
  have hpad : padCell width line ++ '│' :: rest = ' ' :: (line ++
      (List.replicate (width - Text.width line) ' ' ++ ' ' :: '│' :: rest)) := by
    simp [padCell]
  -- the blank after the text is there however narrow the column is, so no sequence goes on past it
  have hstops : Stops inSequence
      (List.replicate (width - Text.width line) ' ' ++ ' ' :: '│' :: rest) := by
    cases width - Text.width line with
    | zero => exact stops_cons rfl _
    | succ n => exact stops_cons rfl _
  have hblank : bare (' ' :: '│' :: rest) = '│' :: bare rest :=
    (bare_cons (by decide) _).trans (bare_cons (by decide) rest)
  rw [hpad, bare_cons (by decide), bare_append hstops, bare_blanks, hblank]
  rfl

/-- **A line of a row** shows what its cells show. -/
theorem bare_rowLine {widths : List Nat} {cells : List (List Char)}
    (h : widths.length = cells.length) :
    bare (rowLine widths cells) = '│' :: cells.flatMap fun line => bare line ++ ['│'] := by
  have hcells : ∀ {widths : List Nat} {cells : List (List Char)}, widths.length = cells.length →
      bare ((widths.zip cells).flatMap fun p => padCell p.1 p.2 ++ ['│']) =
        cells.flatMap fun line => bare line ++ ['│'] := by
    intro widths
    induction widths with
    | nil =>
        intro cells h
        rw [List.length_eq_zero_iff.1 h.symm]
        rfl
    | cons width widths ih =>
        intro cells h
        obtain ⟨line, cells, rfl⟩ := List.exists_cons_of_length_eq_add_one h.symm
        rw [List.zip_cons_cons, List.flatMap_cons, List.append_assoc, List.singleton_append,
          bare_padCell, ih (Nat.add_right_cancel h), List.flatMap_cons, List.append_assoc]
        rfl
  exact (bare_cons (by decide) _).trans (congrArg ('│' :: ·) (hcells h))

/-- **A row** shows what its cells show, however wide they are. -/
theorem bare_rowLines {widths : List Nat} {cells : List String}
    (h : widths.length = cells.length) :
    (rowLines widths cells).map bare = bareRow (cells.map bareCell) := by
  have hheight : (cells.map bareCell).map (·.length) = cells.map fun c => (cellLines c).length := by
    simp [bareCell]
  have hline : ∀ (k : Nat) (c : String),
      bare (((cellLines c)[k]?).getD []) = ((bareCell c)[k]?).getD [] := by
    intro k c
    rw [bareCell, List.getElem?_map]
    cases (cellLines c)[k]? <;> rfl
  rw [rowLines, bareRow, hheight, List.map_map]
  refine List.map_congr_left fun k _ => ?_
  rw [Function.comp_apply, bare_rowLine (by rw [List.length_map, h]), List.flatMap_map,
    List.flatMap_map]
  simp only [hline]

/-- Rows one below the other. -/
theorem bare_rows {widths : List Nat} {rows : List (List String)}
    (h : ∀ row ∈ rows, widths.length = row.length) :
    (rows.flatMap (rowLines widths)).map bare = (rows.map (·.map bareCell)).flatMap bareRow := by
  induction rows with
  | nil => rfl
  | cons row rest ih =>
      rw [List.flatMap_cons, List.map_append, bare_rowLines (h row List.mem_cons_self),
        ih fun other hother => h other (List.mem_cons_of_mem _ hother)]
      rfl

/-- The lines below the first one. -/
theorem bare_linesBelow {widths : List Nat} {header : List String} {rows : List (List String)}
    (hheader : widths.length = header.length) (h : ∀ row ∈ rows, widths.length = row.length) :
    (linesBelow widths header rows).map bare = bareRow (header.map bareCell) ++
      (if rows.isEmpty then [] else
        bare (rule '├' '┼' '┤' widths) :: (rows.map (·.map bareCell)).flatMap bareRow) ++
        [bare (rule '╰' '┴' '╯' widths)] := by
  rw [linesBelow, List.map_append, List.map_append, bare_rowLines hheader]
  split
  · rfl
  · rw [List.map_cons, bare_rows h]
    rfl

/-- **But for blanks and rules, a table shows what its cells show.** -/
theorem bare_drawTable {header : List String} {rows rows' : List (List String)}
    (hrows : ∀ row ∈ rows, row.length = header.length)
    (hrows' : ∀ row ∈ rows', row.length = header.length)
    (h : rows.map (·.map bareCell) = rows'.map (·.map bareCell)) :
    bare (drawTable header rows).toList = bare (drawTable header rows').toList := by
  have hlength := length_columnWidths rfl hrows
  have hlength' := length_columnWidths rfl hrows'
  have hsame := hlength.trans hlength'.symm
  have htop : bare (rule '╭' '┬' '╮' (columnWidths (header :: rows))) =
      bare (rule '╭' '┬' '╮' (columnWidths (header :: rows'))) :=
    bare_rule (by decide) (by decide) (by decide) hsame
  have hmiddle : bare (rule '├' '┼' '┤' (columnWidths (header :: rows))) =
      bare (rule '├' '┼' '┤' (columnWidths (header :: rows'))) :=
    bare_rule (by decide) (by decide) (by decide) hsame
  have hbottom : bare (rule '╰' '┴' '╯' (columnWidths (header :: rows))) =
      bare (rule '╰' '┴' '╯' (columnWidths (header :: rows'))) :=
    bare_rule (by decide) (by decide) (by decide) hsame
  have hempty : rows.isEmpty = rows'.isEmpty := by
    have hmap := congrArg List.isEmpty h
    rwa [List.isEmpty_map, List.isEmpty_map] at hmap
  rw [toList_drawTable, toList_drawTable, bare_joinLines, bare_joinLines, List.map_cons,
    List.map_cons, bare_linesBelow hlength fun row hrow => hlength.trans (hrows row hrow).symm,
    bare_linesBelow hlength' fun row hrow => hlength'.trans (hrows' row hrow).symm, hempty, h,
    htop, hmiddle, hbottom]

end ZoneConsole
