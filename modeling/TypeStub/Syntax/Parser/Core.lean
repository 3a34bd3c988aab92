import TypeStub.Syntax.Token
/-!
# Parser foundations

A parser is a function from the tokens that are left to a result, or to failure. The grammar is
recursive in many places at once; `Rules` collects the rules that are called recursively, so that
every rule is an ordinary definition over a `Rules` value, and the knot is tied in one place with
an explicit bound on the depth.
-/

namespace TypeStub.Syntax

/-- Which language is read: the minor version of its third edition, and whether comments that give
types are part of it. -/
structure Dialect where
  minor : Nat
  typeComments : Bool
  deriving DecidableEq, Repr, Inhabited

/-- The tokens that are left, and where the last token before them ended. Line ends and
indentation are not counted as a last token. -/
structure Input where
  tokens : List Token
  endLine : Nat
  endCol : Nat

abbrev Parse := StateT Input Option

/-- The place of a token. -/
structure Place where
  line : Nat
  col : Nat

namespace Parse

def peek : Parse TokenKind := fun s =>
  match s.tokens with
  | t :: _ => some (t.kind, s)
  | [] => some (.endMarker, s)

def peekSecond : Parse TokenKind := fun s =>
  match s.tokens with
  | _ :: t :: _ => some (t.kind, s)
  | _ => some (.endMarker, s)

def isLayout : TokenKind → Bool
  | .newline | .indent | .dedent | .endMarker => true
  | _ => false

def next : Parse Token := fun s =>
  match s.tokens with
  | t :: rest =>
    if isLayout t.kind then some (t, { s with tokens := rest })
    else some (t, { tokens := rest, endLine := t.span.endLine, endCol := t.span.endCol })
  | [] => none

/-- Takes the next token, whose kind is known. -/
def skip : Parse Unit := do
  let _ ← next

def here : Parse Place := fun s =>
  match s.tokens with
  | t :: _ => some ({ line := t.span.line, col := t.span.col }, s)
  | [] => some ({ line := s.endLine, col := s.endCol }, s)

def spanFrom (start : Place) : Parse Span := fun s =>
  some ({ line := start.line, col := start.col, endLine := s.endLine, endCol := s.endCol }, s)

def expect (kind : TokenKind) : Parse Unit := do
  if (← peek) == kind then skip else failure

def accept (kind : TokenKind) : Parse Bool := do
  if (← peek) == kind then
    skip
    return true
  else return false

def at? (kind : TokenKind) : Parse Bool := do
  return (← peek) == kind

abbrev expectOp (text : String) : Parse Unit := expect (.op text)

abbrev expectKeyword (text : String) : Parse Unit := expect (.keyword text)

abbrev acceptOp (text : String) : Parse Bool := accept (.op text)

abbrev acceptKeyword (text : String) : Parse Bool := accept (.keyword text)

abbrev atOp (text : String) : Parse Bool := at? (.op text)

abbrev atKeyword (text : String) : Parse Bool := at? (.keyword text)

def name : Parse String := do
  match ← peek with
  | .name text =>
    skip
    return text
  | _ => failure

/-- Tries a rule; without success nothing is taken. -/
def attempt {α : Type} (rule : Parse α) : Parse (Option α) := fun s =>
  match rule s with
  | some (a, s') => some (some a, s')
  | none => some (none, s)

/-- Repeats a rule until it gives nothing, at most `fuel` times. -/
def repeatFor {α : Type} (rule : Parse (Option α)) : (fuel : Nat) → Parse (List α)
  | 0 => failure
  | fuel + 1 => do
    match ← rule with
    | none => return []
    | some a =>
      let rest ← repeatFor rule fuel
      return a :: rest

/-- Repeats a rule that takes at least one token until it gives nothing. -/
def many {α : Type} (rule : Parse (Option α)) : Parse (List α) := fun s =>
  repeatFor rule (s.tokens.length + 1) s

/-- Fails unless the dialect has syntax that was added in version `minor`. -/
def require (d : Dialect) (minor : Nat) : Parse Unit :=
  if d.minor < minor then failure else pure ()

end Parse

/-- The rules that other rules call recursively. Each of them is called only after at least one
token has been taken. `embedded` reads the expression between the braces of a formatted string:
its text, and line and column of its first character. -/
structure Rules where
  dialect : Dialect
  expression : Parse Expr
  disjunction : Parse Expr
  inversion : Parse Expr
  bitOr : Parse Expr
  factor : Parse Expr
  embedded : List Char → Place → Option Expr
  pattern : Parse Pattern
  block : Parse (List Stmt)

end TypeStub.Syntax
