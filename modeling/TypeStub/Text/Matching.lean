import TypeStub.Text.Lines
/-!
# Matching blocks of two sequences

Two sequences are matched by their longest common block, and then by the longest common blocks to
both sides of it. Elements that are very frequent in a long sequence do not start a block: they
only extend one.
-/

namespace TypeStub.Text

variable {α : Type} [BEq α]

/-- A block of equal elements: where it starts in the two sequences, and how long it is. -/
structure Block where
  old : Nat
  new : Nat
  size : Nat
  deriving DecidableEq, Repr, Inhabited

/-- Whether an element is too frequent in a sequence to start a block. -/
def isPopular (items : List α) (x : α) : Bool :=
  let n := items.length
  n ≥ 200 && items.count x > n / 100 + 1

def withStarts (items : List α) : List (α × Bool) :=
  items.map fun x => (x, !isPopular items x)

/-- For each element of `new`, the length of the longest common block that ends with it and with
`x`. `before` holds the lengths for the elements in front, with the element before `x`. -/
def runLengths (x : α) : (new : List (α × Bool)) → (before : List Nat) → List Nat
  | (y, starts) :: new, n :: before =>
    (if starts && x == y then n + 1 else 0) :: runLengths x new before
  | _, _ => []

/-- The better of a block and the ones that end at place `i` of the old sequence with the given
lengths: only a longer one is better. -/
def betterBlock (i : Nat) (best : Block) (j : Nat) : List Nat → Block
  | [] => best
  | k :: rest =>
    let best := if k > best.size then ⟨i + 1 - k, j + 1 - k, k⟩ else best
    betterBlock i best (j + 1) rest

/-- The best block among those found and those that end at place `i` or later. -/
def longestFrom (i : Nat) (best : Block) (before : List Nat) (new : List (α × Bool)) :
    (old : List α) → Block
  | [] => best
  | x :: old =>
    let row := runLengths x new (0 :: before)
    longestFrom (i + 1) (betterBlock i best 0 row) row new old

/-- The longest common block; the first one if there are several. It is extended on both sides as
far as elements agree. -/
def longestBlock (old : List α) (new : List (α × Bool)) : Block :=
  let best := longestFrom 0 ⟨0, 0, 0⟩ (new.map fun _ => 0) new old
  let plain := new.map (·.1)
  let back := (commonStart (old.take best.old).reverse (plain.take best.new).reverse).length
  let on := (commonStart (old.drop (best.old + best.size))
    (plain.drop (best.new + best.size))).length
  ⟨best.old - back, best.new - back, back + best.size + on⟩

/-- The common blocks of two sequences, in order, with their places counted from `i` and `j`. -/
def blocksFrom : (fuel : Nat) → (i j : Nat) → (old : List α) → (new : List (α × Bool)) →
    List Block
  | 0, _, _, _, _ => []
  | fuel + 1, i, j, old, new =>
    let b := longestBlock old new
    if b.size == 0 then []
    else
      let k := b.old + b.size
      let l := b.new + b.size
      blocksFrom fuel i j (old.take b.old) (new.take b.new)
        ++ ⟨i + b.old, j + b.new, b.size⟩
        :: blocksFrom fuel (i + k) (j + l) (old.drop k) (new.drop l)

def blocks (old new : List α) : List Block :=
  blocksFrom (old.length + 1) 0 0 old (withStarts new)

def matchCount (old new : List α) : Nat :=
  (blocks old new).foldr (fun b n => b.size + n) 0

/-- A part of two sequences: elements that are in both, or elements in one in place of those in the
other. -/
inductive Part (α : Type) where
  | same (items : List α)
  | changed (old new : List α)
  deriving Repr

def consPart (p : Part α) (rest : List (Part α)) : List (Part α) :=
  match p, rest with
  | .changed [] [], rest => rest
  | .same [], rest => rest
  | .same items, .same more :: rest => .same (items ++ more) :: rest
  | p, rest => p :: rest

/-- The parts of two sequences between blocks; the sequences start at places `i` and `j`. -/
def partsFrom (i j : Nat) (old new : List α) : List Block → List (Part α)
  | [] => consPart (.changed old new) []
  | b :: rest =>
    let p := b.old - i
    let q := b.new - j
    consPart (.changed (old.take p) (new.take q))
      (consPart (.same ((old.drop p).take b.size))
        (partsFrom (b.old + b.size) (b.new + b.size) (old.drop (p + b.size))
          (new.drop (q + b.size)) rest))

def parts (old new : List α) : List (Part α) :=
  partsFrom 0 0 old new (blocks old new)

end TypeStub.Text
