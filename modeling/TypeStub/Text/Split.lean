/-!
# Cutting and joining text

Text that is scanned is a list of characters; these are the cuts and joins every format needs.
-/

namespace TypeStub.Text

/-- The pieces of a list between the elements that satisfy `p`; there is always at least one. -/
def splitBy {α : Type} (p : α → Bool) : List α → List (List α)
  | [] => [[]]
  | a :: rest =>
    if p a then [] :: splitBy p rest
    else
      match splitBy p rest with
      | [] => [[a]]
      | piece :: pieces => (a :: piece) :: pieces

def splitAt (sep : Char) (text : List Char) : List (List Char) :=
  splitBy (· == sep) text

/-- The words of a text that is divided by single or repeated spaces and line ends. -/
def words (text : List Char) : List (List Char) :=
  (splitBy (fun c => c == ' ' || c == '\n') text).filter fun w => !w.isEmpty

def joinWith {α : Type} (sep : List α) : List (List α) → List α
  | [] => []
  | [piece] => piece
  | piece :: pieces => piece ++ sep ++ joinWith sep pieces

def join (sep : String) : List String → String
  | [] => ""
  | [piece] => piece
  | piece :: pieces => piece ++ sep ++ join sep pieces

/-- The lists with one element of each part. The element of the first part changes fastest. -/
def choices {α : Type} : List (List α) → List (List α)
  | [] => [[]]
  | part :: parts => (choices parts).flatMap fun choice => part.map (· :: choice)

/-- What follows `pre` in a list that starts with it. -/
def dropPrefix? {α : Type} [BEq α] : List α → List α → Option (List α)
  | [], rest => some rest
  | _ :: _, [] => none
  | p :: pre, c :: rest => if p == c then dropPrefix? pre rest else none

def startsWith {α : Type} [BEq α] (pre rest : List α) : Bool :=
  (dropPrefix? pre rest).isSome

/-- The parts of a list before and after the first place where `mark` begins. -/
def cut? {α : Type} [BEq α] (mark : List α) : List α → Option (List α × List α)
  | [] => if mark.isEmpty then some ([], []) else none
  | c :: rest =>
    match dropPrefix? mark (c :: rest) with
    | some after => some ([], after)
    | none => (cut? mark rest).map fun (before, after) => (c :: before, after)

/-- The number of `c`'s at the start of a list. -/
def countLeading (c : Char) (text : List Char) : Nat :=
  (text.takeWhile (· == c)).length

/-- The list without the trailing elements that satisfy `p`. -/
def dropTrailing {α : Type} (p : α → Bool) (l : List α) : List α :=
  (l.reverse.dropWhile p).reverse

end TypeStub.Text
