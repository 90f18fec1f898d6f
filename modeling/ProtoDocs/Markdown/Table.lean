import ProtoDocs.Text.Blank

/-!
# Tables

A table in the pipe format: a header line, a line of dashes, and a line for each row. Columns are
aligned on the left and as wide as their widest cell, with some room beyond the header. Cells are
trimmed, missing cells are empty, and cells past the header are left out.

* `Table`            headers and rows;
* `Table.cell`       a cell as shown;
* `Table.width`      the width of a column;
* `Table.lines`, `Table.render`   the lines of the table, and the whole.
-/

namespace ProtoDocs

structure Table where
  headers : List Text
  rows : List (List Text)
  deriving DecidableEq, Repr

namespace Table

/-- how much wider than its header a column is at least -/
def headerRoom : Nat := 2

/-- the cell of column `i` in a row, trimmed, or nothing if the row is too short -/
def cell (row : List Text) (i : Nat) : Text :=
  (row[i]?.getD []).trim

/-- the width of column `i` under the header `header` -/
def width (t : Table) (header : Text) (i : Nat) : Nat :=
  t.rows.foldl (fun w row => max w (cell row i).length) (header.length + headerRoom)

def widths (t : Table) : List Nat :=
  t.headers.mapIdx fun i header => t.width header i

/-- a cell filled up to the width of its column -/
def padded (cell : Text) (width : Nat) : Text :=
  cell ++ List.replicate (width - cell.length) ' '

def line (widths : List Nat) (cells : List Text) : Text :=
  "| ".toList ++ Text.join " | ".toList (List.zipWith padded cells widths) ++ " |".toList

/-- the line between the header and the rows -/
def ruler (widths : List Nat) : Text :=
  ['|'] ++ Text.join ['|'] (widths.map fun w => List.replicate (w + 2) '-') ++ ['|']

def shownCells (t : Table) (row : List Text) : List Text :=
  (List.range t.headers.length).map (cell row)

def lines (t : Table) : List Text :=
  line t.widths t.headers :: ruler t.widths :: t.rows.map fun row => line t.widths (t.shownCells row)

def render (t : Table) : Text :=
  Text.join ['\n'] t.lines

end Table
end ProtoDocs
