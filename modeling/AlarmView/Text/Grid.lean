import AlarmView.Text.Width

/-!
# Ruled tables

Tables with a header, drawn with plus signs, hyphens, equals signs and bars.  Every column is as
wide as its widest line; a cell may have several lines.
-/

namespace AlarmView.Text

/-- A table: the titles of the columns and the cells of the rows. -/
structure Grid where
  header : List String
  rows : List (List String)

namespace Grid

def cellLines (cell : String) : List String :=
  cell.splitOn "\n"

def cellWidth (cell : String) : Nat :=
  ((cellLines cell).map width).foldl max 0

def columnWidths : List (List String) → List Nat
  | [] => []
  | [row] => row.map cellWidth
  | row :: rows => List.zipWith max (row.map cellWidth) (columnWidths rows)

def fill (columnWidth : Nat) (line : String) : String :=
  line ++ "".pushn ' ' (columnWidth - width line)

/-- One line of a row, from the lines of its cells at that height. -/
def rowLine (widths : List Nat) (parts : List String) : String :=
  "| " ++ " | ".intercalate (List.zipWith fill widths parts) ++ " |"

def rowLines (widths : List Nat) (row : List String) : List String :=
  let cells := row.map cellLines
  let height := (cells.map List.length).foldl max 0
  (List.range height).map fun line => rowLine widths (cells.map (·.getD line ""))

/-- A line between rows: `ends` at both ends, `stroke` along the columns and `cross` between
them. -/
def rule (ends stroke cross : Char) (widths : List Nat) : String :=
  let strokes := widths.map fun columnWidth => "".pushn stroke (columnWidth + 2)
  ends.toString ++ cross.toString.intercalate strokes ++ ends.toString

def lines (grid : Grid) : List String :=
  let widths := columnWidths (grid.header :: grid.rows)
  let border := rule '+' '-' '+' widths
  let separator := rule '|' '-' '+' widths
  [border] ++ rowLines widths grid.header ++ [rule '+' '=' '=' widths] ++
    ((grid.rows.map (rowLines widths)).intersperse [separator]).flatten ++ [border]

def text (grid : Grid) : String :=
  "\n".intercalate grid.lines

end Grid

end AlarmView.Text
