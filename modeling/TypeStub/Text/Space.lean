import TypeStub.Text.Ranges
/-!
# White space

The characters that stripping and splitting at white space regard as blank.
-/

namespace TypeStub.Text

def spaceTable : List CodeRange := readRanges
  "85 1B 15E0 980-A 1E-1 6 30 FA1"

/-- Whether a code point is blank: the five ASCII line and tab controls, the four information
separators, the space, and the blanks of the table. -/
def isSpace (n : Nat) : Bool :=
  if n < 128 then (9 ≤ n && n ≤ 13) || (28 ≤ n && n ≤ 32) else inRanges spaceTable n

def strip (text : List Char) : List Char :=
  dropTrailing (fun c => isSpace c.toNat) (text.dropWhile fun c => isSpace c.toNat)

def stripEnd (text : List Char) : List Char :=
  dropTrailing (fun c => isSpace c.toNat) text

end TypeStub.Text
