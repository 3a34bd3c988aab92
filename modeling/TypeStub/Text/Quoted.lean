import TypeStub.Text.Printable
/-!
# Quoted text

How a text is written as a string literal. A text is a list of code points here, because it may
hold surrogates; the written form never does.
-/

namespace TypeStub.Text

def points (s : String) : List Nat :=
  s.toList.map (·.toNat)

/-- The text that code points form, if none of them is a surrogate. -/
def ofPoints? (ps : List Nat) : Option (List Char) :=
  if ps.all Nat.isValidChar then some (ps.map Char.ofNat) else none

def escapePoint (n : Nat) : List Char :=
  if n == 9 then ['\\', 't']
  else if n == 10 then ['\\', 'n']
  else if n == 13 then ['\\', 'r']
  else if n == 92 then ['\\', '\\']
  else if n < 0x100 then '\\' :: 'x' :: hexDigits 2 n
  else if n < 0x10000 then '\\' :: 'u' :: hexDigits 4 n
  else '\\' :: 'U' :: hexDigits 8 n

/-- A code point inside a literal: as it is if it is printable and no backslash. -/
def shownPoint (n : Nat) : List Char :=
  if n == 92 || !isPrintable n then escapePoint n else [Char.ofNat n]

def plainQuote (ps : List Nat) : Char :=
  if ps.contains 39 && !ps.contains 34 then '"' else '\''

def quotedBody (ps : List Nat) : List Char :=
  let q := plainQuote ps
  ps.flatMap fun n => if n == q.toNat then ['\\', q] else shownPoint n

def quoted (ps : List Nat) : String :=
  let q := plainQuote ps
  String.ofList (q :: quotedBody ps ++ [q])

def quote (s : String) : String :=
  quoted (points s)

def quotedBytes (octets : List Nat) : String :=
  let q := plainQuote octets
  let shown (n : Nat) : List Char :=
    if n == q.toNat then ['\\', q]
    else if n == 9 || n == 10 || n == 13 || n == 92 then escapePoint n
    else if n < 32 || n ≥ 127 then '\\' :: 'x' :: hexDigits 2 n
    else [Char.ofNat n]
  String.ofList ('b' :: q :: octets.flatMap shown ++ [q])

/-! ## Literals with few backslashes -/

/-- The quotes that can enclose a literal. -/
inductive QuoteMark where
  | single
  | double
  | tripleDouble
  | tripleSingle
  deriving DecidableEq, Repr

namespace QuoteMark

def all : List QuoteMark := [.single, .double, .tripleDouble, .tripleSingle]

def multiline : List QuoteMark := [.tripleDouble, .tripleSingle]

def char : QuoteMark → Char
  | .single | .tripleSingle => '\''
  | .double | .tripleDouble => '"'

def isTriple : QuoteMark → Bool
  | .single | .double => false
  | .tripleDouble | .tripleSingle => true

def chars (q : QuoteMark) : List Char :=
  if q.isTriple then [q.char, q.char, q.char] else [q.char]

end QuoteMark

/-- The inside of a literal that keeps line ends and tabs unless `escapeBlanks`, and the quotes
that can enclose it, best first. If no quote is possible the plain literal is taken. -/
def literalBody (marks : List QuoteMark) (escapeBlanks : Bool) (ps : List Nat) :
    List Char × List QuoteMark :=
  let escaped := ps.flatMap fun n =>
    if !escapeBlanks && (n == 10 || n == 9) then [Char.ofNat n] else shownPoint n
  let lineWise := if escaped.contains '\n' then marks.filter (·.isTriple) else marks
  let possible := lineWise.filter fun m => (cut? m.chars escaped).isNone
  match possible with
  | [] =>
    let q := plainQuote ps
    let fallback : QuoteMark := if q == '"' then .double else .single
    (quotedBody ps, [(marks.find? fun m => m.char == q).getD fallback])
  | _ =>
    match escaped.getLast? with
    | none => (escaped, possible)
    | some last =>
      -- quotes that the last character would run into come last
      let sorted := possible.filter (·.char != last) ++ possible.filter (·.char == last)
      if (sorted.head?.map (·.char)) == some last then
        (escaped.dropLast ++ ['\\', last], sorted)
      else (escaped, sorted)

def sparselyQuoted (marks : List QuoteMark) (ps : List Nat) : String :=
  let (body, possible) := literalBody marks false ps
  let mark := (possible.headD .single).chars
  String.ofList (mark ++ body ++ mark)

end TypeStub.Text
