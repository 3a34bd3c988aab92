/-!
# Tables of differences

A table shows two texts side by side. How it is drawn is left to a terminal.
-/

namespace TypeStub.Comparison

/-- A cell of a table: text, and the colour it is set in. -/
structure Cell where
  text : String
  style : Option String := none
  deriving DecidableEq, Repr

/-- A row of a table, or a line across it. -/
inductive Row where
  | cells (left right : Cell)
  | line
  deriving DecidableEq, Repr

/-- A table with the headers and the widths of its columns. -/
structure Table where
  title : String
  columns : List (String × Int)
  rows : List Row
  deriving DecidableEq, Repr

end TypeStub.Comparison
