import ZoneConsole.Proofs.Text.Digits
import ZoneConsole.Report.Table

/-!
# How tables are drawn

The line above a table tells the widths of its columns, and nothing else does so as plainly.  A
column is as wide as the widest of its cells.

* **`columnAt_columnWidths_lt`**, **`le_columnAt_columnWidths`** — the width of a column, by its
  cells.
* **`rule_injective`** — a rule tells the widths it was drawn for.
* **`toList_drawTable`**, **`exists_drawTable`** — a table begins with its rule.
-/

namespace ZoneConsole

open Text

/-! ### Lines -/

/-- Lists with a mark between two of them: the mark comes before all but the first. -/
theorem flatten_intersperse_cons (mark : Char) (first : List Char) (rest : List (List Char)) :
    ((first :: rest).intersperse [mark]).flatten = first ++ rest.flatMap (mark :: ·) := by
  induction rest generalizing first with
  | nil => simp
  | cons next rest ih =>
      have hstep : ((first :: next :: rest).intersperse [mark]).flatten =
          first ++ mark :: ((next :: rest).intersperse [mark]).flatten := by simp
      rw [hstep, ih next, List.flatMap_cons]
      rfl

theorem Text.joinLines_cons (line : List Char) (lines : List (List Char)) :
    joinLines (line :: lines) = line ++ lines.flatMap ('\n' :: ·) :=
  flatten_intersperse_cons '\n' line lines

/-! ### Widths -/

/-- The width of a column among widths; one that is missing is not wide at all. -/
def columnAt (k : Nat) (widths : List Nat) : Nat := widths.getD k 0

theorem columnAt_widerColumns (k : Nat) (as bs : List Nat) :
    columnAt k (widerColumns as bs) = max (columnAt k as) (columnAt k bs) := by
  induction as, bs using widerColumns.induct generalizing k with
  | case1 a as b bs ih =>
      cases k with
      | zero => rfl
      | succ k => exact ih k
  | case2 as => cases as <;> simp [widerColumns, columnAt]
  | case3 bs hbs =>
      cases bs with
      | nil => exact absurd rfl (hbs ·)
      | cons b bs => simp [widerColumns, columnAt]

section Widest

variable {k : Nat} {rows : List (List Nat)}

theorem le_columnAt_foldl (acc : List Nat) :
    columnAt k acc ≤ columnAt k (rows.foldl widerColumns acc) := by
  induction rows generalizing acc with
  | nil => exact Nat.le_refl _
  | cons row rest ih =>
      have hstep := ih (widerColumns acc row)
      rw [columnAt_widerColumns] at hstep
      exact Nat.le_trans (Nat.le_max_left _ _) hstep

/-- Every row is within the widest. -/
theorem columnAt_le_foldl (acc : List Nat) {row : List Nat} (h : row ∈ rows) :
    columnAt k row ≤ columnAt k (rows.foldl widerColumns acc) := by
  induction rows generalizing acc with
  | nil => cases h
  | cons first rest ih =>
      rcases List.mem_cons.1 h with rfl | h
      · have hstep : columnAt k (widerColumns acc row) ≤
            columnAt k (rest.foldl widerColumns (widerColumns acc row)) := le_columnAt_foldl _
        rw [columnAt_widerColumns] at hstep
        exact Nat.le_trans (Nat.le_max_right _ _) hstep
      · exact ih (widerColumns acc first) h

/-- The widest is below a bound if all rows are. -/
theorem columnAt_foldl_lt {bound : Nat} (acc : List Nat) (hacc : columnAt k acc < bound)
    (h : ∀ row ∈ rows, columnAt k row < bound) :
    columnAt k (rows.foldl widerColumns acc) < bound := by
  induction rows generalizing acc with
  | nil => exact hacc
  | cons row rest ih =>
      refine ih (widerColumns acc row) ?_ fun other hother =>
        h other (List.mem_cons_of_mem _ hother)
      rw [columnAt_widerColumns]
      exact Nat.max_lt.2 ⟨hacc, h row List.mem_cons_self⟩

end Widest

/-- **A column is as wide** as each of its cells at least. -/
theorem le_columnAt_columnWidths {k : Nat} {rows : List (List String)} {row : List String}
    (h : row ∈ rows) : columnAt k (row.map cellWidth) ≤ columnAt k (columnWidths rows) :=
  columnAt_le_foldl [] (List.mem_map_of_mem h)

/-- **A column is no wider** than its cells. -/
theorem columnAt_columnWidths_lt {k bound : Nat} {rows : List (List String)} (hbound : 0 < bound)
    (h : ∀ row ∈ rows, columnAt k (row.map cellWidth) < bound) :
    columnAt k (columnWidths rows) < bound := by
  refine columnAt_foldl_lt [] hbound fun widths hwidths => ?_
  obtain ⟨row, hrow, rfl⟩ := List.mem_map.1 hwidths
  exact h row hrow

theorem length_widerColumns (as bs : List Nat) :
    (widerColumns as bs).length = max as.length bs.length := by
  induction as, bs using widerColumns.induct with
  | case1 a as b bs ih => simp [widerColumns, ih]
  | case2 as => cases as <;> simp [widerColumns]
  | case3 bs hbs =>
      cases bs with
      | nil => exact absurd rfl (hbs ·)
      | cons b bs => simp [widerColumns]

theorem length_foldl_widerColumns {n : Nat} {rows : List (List Nat)} (acc : List Nat)
    (hacc : acc.length = n) (h : ∀ row ∈ rows, row.length = n) :
    (rows.foldl widerColumns acc).length = n := by
  induction rows generalizing acc with
  | nil => exact hacc
  | cons row rest ih =>
      refine ih (widerColumns acc row) ?_ fun other hother =>
        h other (List.mem_cons_of_mem _ hother)
      rw [length_widerColumns, hacc, h row List.mem_cons_self, Nat.max_self]

/-- There are as many columns as cells in a row, if all rows have as many. -/
theorem length_columnWidths {n : Nat} {first : List String} {rows : List (List String)}
    (hfirst : first.length = n) (h : ∀ row ∈ rows, row.length = n) :
    (columnWidths (first :: rows)).length = n := by
  refine length_foldl_widerColumns (widerColumns [] (first.map cellWidth)) ?_
    fun widths hwidths => ?_
  · rw [length_widerColumns, List.length_map, hfirst]
    exact Nat.max_eq_right (Nat.zero_le n)
  · obtain ⟨row, hrow, rfl⟩ := List.mem_map.1 hwidths
    rw [List.length_map]
    exact h row hrow

/-! ### Rules -/

section Rules

variable {left cross right : Char}

/-- A rule, column by column. -/
theorem rule_cons (width : Nat) (widths : List Nat) :
    rule left cross right (width :: widths) = left :: (List.replicate (width + 2) '─' ++
      (widths.flatMap (fun w => cross :: List.replicate (w + 2) '─') ++ [right])) := by
  rw [rule, List.map_cons, flatten_intersperse_cons, List.flatMap_map, List.append_assoc]

/-- What a rule is made of. -/
theorem mem_rule {widths : List Nat} {c : Char} (h : c ∈ rule left cross right widths) :
    c = left ∨ c = cross ∨ c = right ∨ c = '─' := by
  cases widths with
  | nil =>
      have hends : c ∈ [left, right] := h
      grind
  | cons width widths =>
      rw [rule_cons] at h
      simp only [List.mem_cons, List.mem_append, List.mem_replicate, List.mem_flatMap] at h
      grind

/-- Other marks do not stand in rules. -/
theorem notMem_rule {mark : Char} (widths : List Nat) (hleft : mark ≠ left)
    (hcross : mark ≠ cross) (hright : mark ≠ right) (hdash : mark ≠ '─') :
    mark ∉ rule left cross right widths := by
  intro h
  rcases mem_rule h with h | h | h | h
  · exact hleft h
  · exact hcross h
  · exact hright h
  · exact hdash h

/-- A run of marks is told apart from what follows if that begins with another one. -/
theorem replicate_append_inj {mark : Char} {m n : Nat} {a b : List Char}
    (ha : a.head? ≠ some mark) (hb : b.head? ≠ some mark)
    (h : List.replicate m mark ++ a = List.replicate n mark ++ b) : m = n ∧ a = b := by
  induction m generalizing n with
  | zero =>
      cases n with
      | zero => exact ⟨rfl, h⟩
      | succ n => exact absurd (congrArg List.head? h) ha
  | succ m ih =>
      cases n with
      | zero => exact absurd (congrArg List.head? h).symm hb
      | succ n =>
          obtain ⟨hlength, hrest⟩ := ih (List.cons.inj h).2
          exact ⟨congrArg (· + 1) hlength, hrest⟩

variable (hcross : cross ≠ '─') (hright : right ≠ '─') (hne : cross ≠ right)
include hcross hright

/-- What follows a column begins with another mark. -/
theorem head?_columns (ws : List Nat) :
    (ws.flatMap (fun w => cross :: List.replicate (w + 2) '─') ++ [right]).head? ≠ some '─' := by
  cases ws with
  | nil => exact fun h => hright (Option.some.inj h)
  | cons w ws => exact fun h => hcross (Option.some.inj h)

include hne

/-- A rule tells its columns after the first one. -/
theorem columns_injective {ws ws' : List Nat}
    (h : ws.flatMap (fun w => cross :: List.replicate (w + 2) '─') ++ [right] =
      ws'.flatMap (fun w => cross :: List.replicate (w + 2) '─') ++ [right]) : ws = ws' := by
  induction ws generalizing ws' with
  | nil =>
      cases ws' with
      | nil => rfl
      | cons w' ws' => exact absurd (List.cons.inj h).1.symm hne
  | cons w ws ih =>
      cases ws' with
      | nil => exact absurd (List.cons.inj h).1 hne
      | cons w' ws' =>
          -- each column ends where its dashes do, since neither mark after them is a dash
          rw [List.flatMap_cons, List.flatMap_cons, List.append_assoc, List.append_assoc] at h
          obtain ⟨hwidth, hrest⟩ := replicate_append_inj (head?_columns hcross hright ws)
            (head?_columns hcross hright ws') (List.cons.inj h).2
          rw [Nat.add_right_cancel hwidth, ih hrest]

/-- **A rule tells the widths it was drawn for.** -/
theorem rule_injective {ws ws' : List Nat}
    (h : rule left cross right ws = rule left cross right ws') : ws = ws' := by
  cases ws with
  | nil =>
      cases ws' with
      | nil => rfl
      | cons w' ws' =>
          rw [rule_cons] at h
          exact absurd (List.cons.inj (List.cons.inj h).2).1 hright
  | cons w ws =>
      cases ws' with
      | nil =>
          rw [rule_cons] at h
          exact absurd (List.cons.inj (List.cons.inj h).2).1.symm hright
      | cons w' ws' =>
          rw [rule_cons, rule_cons] at h
          obtain ⟨hwidth, hrest⟩ := replicate_append_inj (head?_columns hcross hright ws)
            (head?_columns hcross hright ws') (List.cons.inj h).2
          rw [Nat.add_right_cancel hwidth, columns_injective hcross hright hne hrest]

end Rules

/-! ### Tables -/

/-- The lines of a table below its first one. -/
def linesBelow (widths : List Nat) (header : List String) (rows : List (List String)) :
    List (List Char) :=
  rowLines widths header ++
    (if rows.isEmpty then [] else rule '├' '┼' '┤' widths :: rows.flatMap (rowLines widths)) ++
      [rule '╰' '┴' '╯' widths]

/-- **A table** is a rule and the lines below it. -/
theorem toList_drawTable (header : List String) (rows : List (List String)) :
    (drawTable header rows).toList = joinLines
      (rule '╭' '┬' '╮' (columnWidths (header :: rows)) ::
        linesBelow (columnWidths (header :: rows)) header rows) := by
  rw [drawTable, String.toList_ofList, linesBelow]
  simp

/-- **A table begins with its rule**, and more lines follow. -/
theorem exists_drawTable (header : List String) (rows : List (List String)) :
    ∃ more, (drawTable header rows).toList =
      rule '╭' '┬' '╮' (columnWidths (header :: rows)) ++ '\n' :: more := by
  have hbelow : linesBelow (columnWidths (header :: rows)) header rows ≠ [] := by simp [linesBelow]
  obtain ⟨line, lines, hlines⟩ := List.exists_cons_of_ne_nil hbelow
  rw [toList_drawTable, hlines, joinLines_cons, List.flatMap_cons]
  exact ⟨_, rfl⟩

end ZoneConsole
