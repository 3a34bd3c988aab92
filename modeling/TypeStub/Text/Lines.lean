import TypeStub.Text.Split
/-!
# Lines of text

Universal line ends, and the removal of a common indentation.
-/

namespace TypeStub.Text

def isLineBreak (c : Char) : Bool :=
  let n := c.toNat
  (10 ≤ n && n ≤ 13) || (28 ≤ n && n ≤ 30) || n == 0x85 || n == 0x2028 || n == 0x2029

def linesWithEnds : List Char → List (List Char × List Char)
  | [] => []
  | '\r' :: '\n' :: rest => ([], ['\r', '\n']) :: linesWithEnds rest
  | c :: rest =>
    if isLineBreak c then ([], [c]) :: linesWithEnds rest
    else
      match linesWithEnds rest with
      | [] => [([c], [])]
      | (line, stop) :: lines => (c :: line, stop) :: lines

def splitLines (text : List Char) : List (List Char) :=
  (linesWithEnds text).map (·.1)

def commonStart {α : Type} [BEq α] : List α → List α → List α
  | a :: as, b :: bs => if a == b then a :: commonStart as bs else []
  | _, _ => []

def isIndent (c : Char) : Bool :=
  c == ' ' || c == '\t'

def commonIndent : List (List Char) → List Char
  | [] => []
  | [line] => line.takeWhile isIndent
  | line :: rest => commonStart (line.takeWhile isIndent) (commonIndent rest)

/-- A text without the indentation that all its lines share. Lines of blanks only are emptied and
do not count. -/
def dedent (text : List Char) : List Char :=
  let lines := (splitAt '\n' text).map fun line => if line.all isIndent then [] else line
  let margin := commonIndent (lines.filter (!·.isEmpty))
  joinWith ['\n'] (lines.map fun line => (dropPrefix? margin line).getD line)

/-- The text with line feeds in place of carriage returns and line feeds. -/
def joinLineEnds : List Char → List Char
  | [] => []
  | '\r' :: '\n' :: rest => '\n' :: joinLineEnds rest
  | c :: rest => c :: joinLineEnds rest

def unifyLineEnds : List Char → List Char
  | [] => []
  | '\r' :: '\n' :: rest => '\n' :: unifyLineEnds rest
  | c :: rest => (if c == '\r' then '\n' else c) :: unifyLineEnds rest

end TypeStub.Text
