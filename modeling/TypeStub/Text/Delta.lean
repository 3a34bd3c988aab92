import TypeStub.Text.Matching
import TypeStub.Text.Space
/-!
# Differences between texts

The lines of two texts side by side: lines in both, lines in the first or in the second only, and
hints at what differs between two similar lines.
-/

namespace TypeStub.Text

/-- A line of a comparison. -/
inductive Delta where
  | same (line : List Char)
  | removed (line : List Char)
  | added (line : List Char)
  | hint (line : List Char)
  deriving DecidableEq, Repr

/-! ## Similar lines -/

/-- How similar two lines are: twice the number of matched characters, and the number of all
characters. -/
structure Similarity where
  matched : Nat
  total : Nat
  deriving DecidableEq, Repr

def Similarity.exceeds (a b : Similarity) : Bool :=
  a.matched * b.total > b.matched * a.total

def Similarity.floor : Similarity := ⟨74, 100⟩

def Similarity.enough : Similarity := ⟨75, 100⟩

/-- How many characters two lines share at most, wherever they stand. -/
def sharedCount : List Char → List Char → Nat
  | [], _ => 0
  | c :: rest, line =>
    if line.contains c then sharedCount rest (line.erase c) + 1 else sharedCount rest line

/-- The similarity of two lines if it exceeds another. Two upper bounds are tried first. -/
def similarity? (old new : List Char) (best : Similarity) : Option Similarity :=
  let total := old.length + new.length
  let at_ (n : Nat) : Similarity := ⟨2 * n, total⟩
  if !(at_ (min old.length new.length)).exceeds best then none
  else if !(at_ (sharedCount old new)).exceeds best then none
  else
    let s := at_ (matchCount old new)
    if s.exceeds best then some s else none

/-- Two lines by their places, the similarity of the best pair, and the first pair of equal
lines. -/
structure Pairing where
  best : Similarity := .floor
  similar : Option (Nat × Nat) := none
  equal : Option (Nat × Nat) := none
  deriving Repr

def Pairing.regard (p : Pairing) (i j : Nat) (old new : List Char) : Pairing :=
  if old == new then { p with equal := p.equal.orElse fun _ => some (i, j) }
  else
    match similarity? old new p.best with
    | some s => { p with best := s, similar := some (i, j) }
    | none => p

def pairing (old new : List (List Char)) : Pairing :=
  new.zipIdx.foldl (fun p (line, j) =>
    old.zipIdx.foldl (fun p (other, i) => p.regard i j other line) p) {}

/-! ## Hints -/

/-- The marks below the two lines of a pair: a circumflex for characters that were replaced, a
minus sign for those that were removed and a plus sign for those that were added. -/
def hintMarks : List (Part Char) → List Char × List Char
  | [] => ([], [])
  | p :: rest =>
    let (below, above) := hintMarks rest
    match p with
    | .same items => (items.map (fun _ => ' ') ++ below, items.map (fun _ => ' ') ++ above)
    | .changed old [] => (old.map (fun _ => '-') ++ below, above)
    | .changed [] new => (below, new.map (fun _ => '+') ++ above)
    | .changed old new => (old.map (fun _ => '^') ++ below, new.map (fun _ => '^') ++ above)

/-- A line of marks below a line, if there are any. Blanks of the line are kept, so that the marks
stay below their characters. -/
def hintLine (line marks : List Char) : List Delta :=
  let kept := line.zip marks |>.map fun (c, mark) =>
    if mark == ' ' && isSpace c.toNat then c else mark
  let shown := stripEnd kept
  if shown.isEmpty then [] else [.hint (shown ++ ['\n'])]

def similarLines (old new : List Char) : List Delta :=
  let (below, above) := hintMarks (parts old new)
  .removed old :: hintLine old below ++ .added new :: hintLine new above

/-! ## Comparison -/

/-- Lines in place of others that resemble none of them; the smaller group comes first. -/
def plainChange (old new : List (List Char)) : List Delta :=
  if new.length < old.length then new.map .added ++ old.map .removed
  else old.map .removed ++ new.map .added

/-- Lines in place of others. The most similar pair of lines divides them. -/
def change : (fuel : Nat) → (old new : List (List Char)) → List Delta
  | 0, old, new => plainChange old new
  | fuel + 1, old, new =>
    if old.isEmpty || new.isEmpty then old.map .removed ++ new.map .added
    else
      let p := pairing old new
      let around (i j : Nat) (middle : List Char → List Char → List Delta) : List Delta :=
        change fuel (old.take i) (new.take j)
          ++ middle (old.getD i []) (new.getD j [])
          ++ change fuel (old.drop (i + 1)) (new.drop (j + 1))
      match p.similar, p.equal with
      | some (i, j), equal =>
        if Similarity.enough.exceeds p.best then
          match equal with
          | some (i, j) => around i j fun line _ => [.same line]
          | none => plainChange old new
        else around i j similarLines
      | none, some (i, j) => around i j fun line _ => [.same line]
      | none, none => plainChange old new

def partDeltas : Part (List Char) → List Delta
  | .same lines => lines.map .same
  | .changed old new => change (old.length + new.length) old new

def deltas (old new : List (List Char)) : List Delta :=
  (parts old new).flatMap partDeltas

end TypeStub.Text
