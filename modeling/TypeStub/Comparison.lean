import TypeStub.Comparison.Chunk
import TypeStub.Files.Walk
/-!
# Comparing directories of stubs

Each stub that two directories do not agree on is shown as a table.
-/

namespace TypeStub.Comparison

open TypeStub.Files TypeStub.WorkM

def modulesBelow (root : Path) : WorkM (List Path) :=
  foldPaths (fun paths path => do
    if isModulePath path && (← files).isFile path then
      match path.relativeTo? root with
      | some below => return paths ++ [below]
      | none => throw .outside
    else return paths) [] root

def textAt? (path : Path) : WorkM (Option (List Char)) := do
  if (← files).pathExists path then
    let text ← look (·.readText path)
    return some text
  else return none

/-- What to compare and how to show it. -/
structure Request where
  base : Path
  left : String
  right : String
  width : Int := 160
  hideMissing : Bool := false
  deriving DecidableEq, Repr

def present (t : Table) : WorkM Unit := do
  modify fun w => { w with tables := w.tables ++ [t] }
  say ""

def compareAt (r : Request) (path : Path) : WorkM Unit := do
  let left ← textAt? ((r.base.join (.read r.left)).join path)
  if r.hideMissing && left.isNone then return
  let right ← textAt? ((r.base.join (.read r.right)).join path)
  if r.hideMissing && right.isNone then return
  let left := left.getD []
  let right := right.getD []
  if left == right then return
  let width := r.width.fdiv 2
  present
    { title := path.text, columns := [(r.left, width), (r.right, width)]
      rows := rows left right }

def compare (r : Request) : WorkM Unit := do
  let left ← modulesBelow (r.base.join (.read r.left))
  let right ← modulesBelow (r.base.join (.read r.right))
  (Path.sorted (left ++ right)).forM (compareAt r)

end TypeStub.Comparison
