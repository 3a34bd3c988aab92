import TypeStub.Comparison.Table
import TypeStub.Text.Delta
/-!
# Chunks of a comparison

Adjacent lines that two texts share make up a chunk, and so do adjacent lines that differ. Long
chunks of shared lines are cut down to the lines next to a difference.
-/

namespace TypeStub.Comparison

open TypeStub.Text

/-- Adjacent lines that two texts share, or in which they differ. -/
structure Chunk where
  shared : Bool
  left : List String
  right : List String
  deriving DecidableEq, Repr

def lineChunk? : Delta → Option Chunk
  | .same line => some ⟨true, [String.ofList line], [String.ofList line]⟩
  | .removed line => some ⟨false, [String.ofList line], []⟩
  | .added line => some ⟨false, [], [String.ofList line]⟩
  | .hint _ => none

def consChunk (c : Chunk) : List Chunk → List Chunk
  | [] => [c]
  | d :: rest =>
    if c.shared == d.shared then
      { c with left := c.left ++ d.left, right := c.right ++ d.right } :: rest
    else c :: d :: rest

def chunks : List Delta → List Chunk
  | [] => []
  | line :: rest =>
    match lineChunk? line with
    | some c => consChunk c (chunks rest)
    | none => chunks rest

def gap : String := "<<SEPARATOR>>"

/-- Shared lines cut down: the first three, and the last three unless nothing follows. -/
def cutLines (last : Bool) (lines : List String) : List String :=
  if last then
    if lines.length > 3 then lines.take 3 ++ [gap] else lines
  else if lines.length > 6 then lines.take 3 ++ [gap] ++ lines.drop (lines.length - 3)
  else lines

def Chunk.cut (last : Bool) (c : Chunk) : Chunk :=
  if c.shared then { c with left := cutLines last c.left, right := cutLines last c.left } else c

def cutChunks : List Chunk → List Chunk
  | [] => []
  | [c] => [c.cut true]
  | c :: rest => c.cut false :: cutChunks rest

/-- The lines of two columns side by side; the shorter column is filled up. -/
def sideBySide : List String → List String → List (String × String)
  | [], [] => []
  | a :: left, [] => (a, "") :: sideBySide left []
  | [], b :: right => ("", b) :: sideBySide [] right
  | a :: left, b :: right => (a, b) :: sideBySide left right

def Chunk.rows (c : Chunk) : List Row :=
  (sideBySide c.left c.right).map fun (a, b) =>
    if !c.shared then .cells ⟨a, some "red"⟩ ⟨b, some "green"⟩
    else if a == gap then .line
    else .cells ⟨a, none⟩ ⟨b, none⟩

def rows (left right : List Char) : List Row :=
  (cutChunks (chunks (deltas (splitLines left) (splitLines right)))).flatMap Chunk.rows

end TypeStub.Comparison
