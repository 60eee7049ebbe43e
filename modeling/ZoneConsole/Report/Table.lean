import ZoneConsole.Text.Lines
import ZoneConsole.Text.Width

/-!
# Tables

A table is drawn with a frame whose corners are round, a line below its header and
none between its rows. Every column is as wide as its widest line and a blank on
either side, and every row as high as its highest cell.

**`drawTable`** is the drawing, and **`detailBlock`** the other way of showing
fields: one a line, their names flush right.
-/

namespace ZoneConsole

/-- The lines of a cell. -/
def cellLines (cell : String) : List (List Char) := Text.splitLines cell.toList

/-- The width of a cell: that of its widest line. -/
def cellWidth (cell : String) : Nat := ((cellLines cell).map Text.width).foldl max 0

/-- The greater of the widths of two rows, column by column. -/
def widerColumns : List Nat → List Nat → List Nat
  | a :: as, b :: bs => max a b :: widerColumns as bs
  | as, [] => as
  | [], bs => bs

/-- The width of each column. -/
def columnWidths (rows : List (List String)) : List Nat :=
  (rows.map (·.map cellWidth)).foldl widerColumns []

/-- A line between rows or around them, from its ends, its crossings and the widths. -/
def rule (left cross right : Char) (widths : List Nat) : List Char :=
  left ::
    (((widths.map fun w => List.replicate (w + 2) '─').intersperse [cross]).flatten ++ [right])

/-- A line of a cell, filled up to the width of the column. -/
def padCell (width : Nat) (line : List Char) : List Char :=
  ' ' :: (line ++ List.replicate (width - Text.width line) ' ' ++ [' '])

/-- One line of a row, from the lines of its cells. -/
def rowLine (widths : List Nat) (cells : List (List Char)) : List Char :=
  '│' :: ((widths.zip cells).flatMap fun (w, line) => padCell w line ++ ['│'])

/-- The lines of a row. -/
def rowLines (widths : List Nat) (cells : List String) : List (List Char) :=
  let height := (cells.map fun c => (cellLines c).length).foldl max 0
  (List.range height).map fun k => rowLine widths (cells.map fun c => ((cellLines c)[k]?).getD [])

/-- A table with its header. -/
def drawTable (header : List String) (rows : List (List String)) : String :=
  let widths := columnWidths (header :: rows)
  let top := [rule '╭' '┬' '╮' widths] ++ rowLines widths header
  let body :=
    if rows.isEmpty then []
    else rule '├' '┼' '┤' widths :: rows.flatMap (rowLines widths)
  String.ofList (Text.joinLines (top ++ body ++ [rule '╰' '┴' '╯' widths]))

/-- Fields with their names, one a line; those without a value are left out. -/
def detailBlock (fields : List (String × String)) : String :=
  let shown := fields.filter fun (_, value) => !value.isEmpty
  let width := (shown.map fun (name, _) => name.length).foldl max 0
  Text.joinTexts (shown.map fun (name, value) =>
    String.ofList (List.replicate (width - name.length) ' ') ++ name ++ ": " ++ value)

end ZoneConsole
