import TypeStub.Text.Hex
import TypeStub.Text.Split
/-!
# Tables of code points

A property of characters is a list of inclusive ranges in rising order, written as hexadecimal text
by their distances: `AA B B-16` holds the single code points AA and B5 and the range C0 to D6, which
starts B behind the one before and goes on for 16 further code points.
-/

namespace TypeStub.Text

/-- Inclusive range of code points. -/
structure CodeRange where
  first : Nat
  last : Nat
  deriving DecidableEq, Repr

def CodeRange.holds (r : CodeRange) (n : Nat) : Bool :=
  r.first ≤ n && n ≤ r.last

def CodeRange.read (behind : Nat) (text : List Char) : CodeRange :=
  match splitAt '-' text with
  | [gap, more] =>
    { first := behind + ofDigits 16 gap, last := behind + ofDigits 16 gap + ofDigits 16 more }
  | _ => { first := behind + ofDigits 16 text, last := behind + ofDigits 16 text }

def readEntries {α : Type} (rangeOf : α → CodeRange) (read : Nat → List Char → List α)
    (table : String) : List α :=
  ((words table.toList).foldl (fun entries w =>
    (read ((entries.head?.map fun e => (rangeOf e).last).getD 0) w).reverse ++ entries) []).reverse

def readRanges : String → List CodeRange :=
  readEntries id fun behind w => [CodeRange.read behind w]

def inRanges (table : List CodeRange) (n : Nat) : Bool :=
  table.any (·.holds n)

end TypeStub.Text
