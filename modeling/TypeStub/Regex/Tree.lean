/-!
# Regular expressions

The parts a regular expression is made of. Texts are lists of code points. Besides the regular
operators there are anchors, captured groups with references to them, conditions on them, looks
ahead and behind, and parts that are never tried again.
-/

namespace TypeStub.Regex

/-- What changes how a part is matched. -/
inductive Flag
  | ignoreCase
  | multiline
  | dotAll
  | verbose
  | ascii
  | unicode
  | template
  deriving DecidableEq, Repr

def Flag.isAlphabet : Flag → Bool
  | .ascii | .unicode => true
  | _ => false

/-- The named classes of characters. -/
inductive CharClass
  | digit
  | space
  | word
  deriving DecidableEq, Repr

/-- A member of a character set. -/
inductive SetItem
  | point (n : Nat)
  | range (first last : Nat)
  | named (cls : CharClass) (negated : Bool)
  deriving DecidableEq, Repr

/-- A place in the text, without any extent. -/
inductive Anchor
  | textStart
  | textEnd
  | lineStart
  | lineEnd
  | wordEdge
  | noWordEdge
  deriving DecidableEq, Repr

/-- The order in which the numbers of repetitions are tried: from the largest, from the smallest,
or only the largest. -/
inductive Eagerness
  | greedy
  | lazy
  | possessive
  deriving DecidableEq, Repr

/-- The least and the greatest number of characters that a part can match. -/
structure Width where
  least : Nat
  most : Nat
  deriving DecidableEq, Repr

/-- A part of a regular expression; a list of parts stands for their concatenation. A look is
ahead, or behind by the width of its body. -/
inductive Part
  | point (n : Nat) (negated : Bool)
  | any
  | set (items : List SetItem) (negated : Bool)
  | anchor (a : Anchor)
  | backref (group : Nat)
  | «repeat» (eagerness : Eagerness) (least : Nat) (most : Option Nat) (body : List Part)
  | either (branches : List (List Part))
  | group (index : Option Nat) (added dropped : List Flag) (body : List Part)
  | atomic (body : List Part)
  | look (behind : Option Width) (negated : Bool) (body : List Part)
  | condition (group : Nat) (yes no : List Part)

/-- Why a text is no regular expression. -/
inductive RegexError
  | malformed
  /-- A count of repetitions is out of range. -/
  | countTooLarge
  /-- A count of repetitions has too many digits. -/
  | countTooLong
  /-- The whole is set to two alphabets at once. -/
  | alphabets
  deriving DecidableEq, Repr

end TypeStub.Regex

namespace TypeStub

/-- A regular expression with the flags that hold for all of it. -/
structure Regex where
  flags : List Regex.Flag
  parts : List Regex.Part

end TypeStub
