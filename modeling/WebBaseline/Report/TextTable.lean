/-
  WebBaseline.Report.TextTable

  Tables drawn with lines for a terminal. A column is as wide as its widest
  cell; a cell may hold several lines, and a row is as high as its highest cell.
-/

import WebBaseline.Text.Width

namespace WebBaseline.Report.TextTable

/-- The lines of a cell. -/
abbrev Cell := List String

/-- A text between line feeds. -/
def cellLines (cs : List Char) : List (List Char) :=
  match cs with
  | [] => [[]]
  | '\n' :: cs => [] :: cellLines cs
  | c :: cs =>
    match cellLines cs with
    | [] => [[c]]
    | l :: ls => (c :: l) :: ls

/-- The cell of a text. -/
def cell (s : String) : Cell := (cellLines s.toList).map String.ofList

/-- The width of a cell's widest line. -/
def cellWidth (c : Cell) : Nat := (c.map Text.width).foldl max 0

/-- The greater of the numbers at each place. -/
def widest : List Nat → List Nat → List Nat
  | [], ns => ns
  | ms, [] => ms
  | m :: ms, n :: ns => max m n :: widest ms ns

/-- The width of each column. -/
def columnWidths (rows : List (List Cell)) : List Nat :=
  (rows.map (fun row => row.map cellWidth)).foldl widest []

/-! ## Drawing -/

/-- A text repeated. -/
def repeated (n : Nat) (s : String) : String := String.join (List.replicate n s)

/-- A line across the table. -/
def rule (left middle right : String) (widths : List Nat) : String :=
  left ++ middle.intercalate (widths.map (fun w => repeated (w + 2) "─")) ++ right

/-- One line of a cell, filled up to the width of its column. -/
def fill (w : Nat) (s : String) : String :=
  " " ++ s ++ repeated (w - Text.width s) " " ++ " "

/-- The line with a number of each cell in a row. -/
def rowLine (widths : List Nat) (row : List Cell) (number : Nat) : String :=
  let cells := (widths.zip row).map (fun p => fill p.1 (p.2[number]?.getD ""))
  "│" ++ "│".intercalate cells ++ "│"

/-- The lines of a row. -/
def rowLines (widths : List Nat) (row : List Cell) : List String :=
  let height := (row.map List.length).foldl max 1
  (List.range height).map (rowLine widths row)

/-- A table with a header and rows. A table without rows ends with the line
    below its header. -/
def draw (header : List String) (rows : List (List String)) : String :=
  let header := header.map cell
  let rows := rows.map (fun row => row.map cell)
  let widths := columnWidths (header :: rows)
  let body := rows.flatMap (rowLines widths)
  let bottom := if rows.isEmpty then [] else [rule "╰" "┴" "╯" widths]
  "\n".intercalate
    (rule "╭" "┬" "╮" widths :: rowLines widths header ++
      rule "├" "┼" "┤" widths :: (body ++ bottom))

end WebBaseline.Report.TextTable
