import TypeStub.Text.Lines
import TypeStub.Text.Replace
import TypeStub.Text.Space
/-!
# Tables in documents

A table whose cells hold Markdown of several lines is rendered in two steps: the table is rendered
with a key in each cell, and the keys are replaced by the rendered cells.
-/

namespace TypeStub.Docs

open TypeStub.Text

abbrev Renderer := String → String

def Renderer.dedented (render : Renderer) (text : String) : String :=
  render (String.ofList (dedent text.toList))

def cellKey (n : Nat) : String :=
  "CELL[" ++ decimal n ++ "]"

/-- A row of as many cells as given, whose keys count on from `n`. -/
def rowText (n : Nat) (row : List String) : String :=
  "|" ++ String.join ((List.range row.length).map fun i => " " ++ cellKey (n + i) ++ " |") ++ "\n"

/-- The rows of a table, whose keys count on from `n`. -/
def rowsText (n : Nat) : List (List String) → String
  | [] => ""
  | row :: rest => rowText n row ++ rowsText (n + row.length) rest

def tableText (cols : List String) (rows : List (List String)) : String :=
  "| " ++ join " | " cols ++ " |\n"
    ++ "|" ++ String.join (cols.map fun _ => " --- |") ++ "\n"
    ++ rowsText 0 rows

def table (render : Renderer) (cols : List String) (rows : List (List String)) : String :=
  let changes := rows.flatten.zipIdx.map fun (cell, i) => (cellKey i, render.dedented cell)
  let text := replaceEach changes (render.dedented (tableText cols rows))
  String.ofList (stripEnd text.toList)

end TypeStub.Docs
