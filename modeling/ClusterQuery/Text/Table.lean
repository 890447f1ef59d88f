/-!
# Text tables

A table has a column for each of its headers and a line of cells for each row. A column starts as
wide as its header has bytes and is widened to the longest of its cells, counted in characters.
Cells are set to the left, two spaces stand between columns, and the last cell of a line is not
padded. A cell that has no column is left out.
-/

namespace ClusterQuery

structure Column where
  header : String
  width : Nat
  deriving DecidableEq, Repr

/-- A column that is just wide enough for its header. -/
def Column.ofHeader (header : String) : Column :=
  ⟨header, header.utf8ByteSize⟩

/-- Columns widened to the cells of a row. -/
def widen : List Column → List String → List Column
  | c :: columns, cell :: cells =>
    { c with width := max c.width cell.length } :: widen columns cells
  | columns, _ => columns

/-- The text filled up with spaces on its right to a width. -/
def padRight (width : Nat) (text : String) : String :=
  text ++ String.ofList (List.replicate (width - text.length) ' ')

/-- One line of cells in columns. -/
def tableLine : List Column → List String → String
  | _ :: _, [cell] => cell
  | c :: columns, cell :: cells => padRight c.width cell ++ "  " ++ tableLine columns cells
  | _, _ => ""

/-- The line of headers and the lines of the rows. -/
def tableLines (columns : List Column) (rows : List (List String)) : List String :=
  (columns.map Column.header :: rows).map (tableLine (rows.foldl widen columns))

/-- Every line ends with a newline. -/
def unlines (lines : List String) : String :=
  String.join (lines.map (· ++ "\n"))

end ClusterQuery
