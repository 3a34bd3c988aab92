import TypeStub.Syntax.Parser
import TypeStub.Syntax.Printer.Statement
/-!
# Sources

A source is the text of a module together with its path and the version of the language it is
read in. Positions in trees are lines and byte columns; a source turns them into byte offsets and
cuts the text there.
-/

namespace TypeStub

open TypeStub.Syntax

/-- A version of the language: its edition and its minor number. Only the third edition can be
read; a negative minor number stands for the newest one. -/
structure Version where
  major : Int
  minor : Int
  deriving DecidableEq, Repr, Inhabited

/-- The newest minor version whose grammar is read: there are no type aliases and no type
parameters in it. A text that is said to be of a later version is read by the same rules. -/
def newestMinor : Nat := 11

/-- Why a text cannot be read. -/
inductive ReadError where
  /-- The text does not follow the grammar. -/
  | malformed
  /-- The version is not of the third edition. -/
  | edition
  /-- The minor version does not fit into a machine word. -/
  | versionTooLarge
  /-- The text holds a surrogate. -/
  | surrogate
  deriving DecidableEq, Repr

def dialectOf (version : Option Version) (typeComments : Bool) : Except ReadError Dialect :=
  match version with
  | none => .ok { minor := newestMinor, typeComments }
  | some v =>
    if v.major != 3 then .error .edition
    else if v.minor ≥ 0x80000000 || v.minor < -0x80000000 then .error .versionTooLarge
    else if v.minor < 0 then .ok { minor := newestMinor, typeComments }
    else .ok { minor := v.minor.toNat, typeComments }

/-- The text of a module, its path, and how it is read. -/
structure Source where
  text : List Char
  path : String
  version : Option Version
  typeComments : Bool

namespace Source

def readModule (s : Source) : Except ReadError Module := do
  let d ← dialectOf s.version s.typeComments
  match parseModule d s.text with
  | some m => return m
  | none => throw .malformed

def readExpr (s : Source) (text : List Char) : Except ReadError Expr := do
  let d ← dialectOf s.version s.typeComments
  match parseExpression d text with
  | some e => return e
  | none => throw .malformed

def readPoints (s : Source) (points : List Nat) : Except ReadError Expr := do
  let _ ← dialectOf s.version s.typeComments
  match Text.ofPoints? points with
  | some text => s.readExpr text
  | none => throw .surrogate

end Source

/-! ## Lines and offsets -/

/-- The lines of a text, each with its line end: `\n`, `\r` or both together. -/
def sourceLines : List Char → List (List Char)
  | [] => []
  | '\r' :: '\n' :: rest => ['\r', '\n'] :: sourceLines rest
  | c :: rest =>
    if c == '\n' || c == '\r' then [c] :: sourceLines rest
    else
      match sourceLines rest with
      | [] => [[c]]
      | line :: lines => (c :: line) :: lines

def byteLength (text : List Char) : Nat :=
  text.foldr (fun c n => c.utf8Size + n) 0

def rangesFrom (offset : Nat) : List Nat → List (Nat × Nat)
  | [] => []
  | n :: rest => (offset, offset + n) :: rangesFrom (offset + n) rest

def lineOffsets (text : List Char) : List (Nat × Nat) :=
  rangesFrom 0 ((sourceLines text).map byteLength)

/-- What is left of a text behind its first `n` bytes; nothing if a character is cut. -/
def dropBytes : (n : Nat) → List Char → Option (List Char)
  | 0, text => some text
  | _ + 1, [] => some []
  | n + 1, c :: rest => if c.utf8Size ≤ n + 1 then dropBytes (n + 1 - c.utf8Size) rest else none

/-- The first `n` bytes of a text; nothing if a character is cut. -/
def takeBytes : (n : Nat) → List Char → Option (List Char)
  | 0, _ => some []
  | _ + 1, [] => some []
  | n + 1, c :: rest =>
    if c.utf8Size ≤ n + 1 then (takeBytes (n + 1 - c.utf8Size) rest).map (c :: ·) else none

def sliceBytes (text : List Char) (start stop : Nat) : Option (List Char) :=
  if stop ≤ start then some []
  else (dropBytes start text).bind (takeBytes (stop - start))

/-- Why the text of a node cannot be cut out. -/
inductive SpanError where
  /-- There is no such line. -/
  | noLine
  /-- A decorator stands at the start of its line, so that nothing can be in front of it. -/
  | decoratorAtLineStart
  /-- The cut runs through a character. -/
  | splitCharacter
  /-- The cut differs from the text that the lines of the span hold. -/
  | differs (cut lines : String)
  deriving DecidableEq, Repr

def SpanError.message : SpanError → String
  | .differs cut lines => "\nsliced:   >" ++ cut ++ "<\nunparsed: >" ++ lines ++ "<"
  | .noLine | .decoratorAtLineStart | .splitCharacter => ""

def Syntax.Stmt.decorators : Stmt → List Expr
  | .functionDef _ head _ => head.decorators
  | .classDef _ head _ => head.decorators
  | _ => []

def startWithDecorators (line col : Nat) : List Expr → Except SpanError (Nat × Nat)
  | [] => .ok (line, col)
  | d :: rest =>
    if d.span.line < line then
      if d.span.col == 0 then .error .decoratorAtLineStart
      else startWithDecorators d.span.line (d.span.col - 1) rest
    else startWithDecorators line col rest

namespace Source

def offsetsFrom (s : Source) (span : Span) (decorators : List Expr) :
    Except SpanError (Nat × Nat) := do
  let (line, col) ← startWithDecorators span.line span.col decorators
  let lines := lineOffsets s.text
  match lines[line - 1]?, lines[span.endLine - 1]? with
  | some (start, _), some (stop, _) => return (start + col, stop + span.endCol)
  | _, _ => throw .noLine

def cut (s : Source) (start stop : Nat) : Except SpanError (List Char) :=
  match sliceBytes s.text start stop with
  | some text => .ok text
  | none => .error .splitCharacter

/-- The text of a span, taken line by line: the first line from its column on, the lines in
between whole, and the last line up to its column. -/
def segment (s : Source) (span : Span) : Except SpanError (List Char) := do
  let lines := sourceLines s.text
  let piece (line : Option (List Char)) (f : List Char → Option (List Char)) :
      Except SpanError (List Char) :=
    match line with
    | none => .error .noLine
    | some l =>
      match f l with
      | some t => .ok t
      | none => .error .splitCharacter
  if span.line == span.endLine then
    piece lines[span.line - 1]? fun l => sliceBytes l span.col span.endCol
  else
    let first ← piece lines[span.line - 1]? (dropBytes span.col)
    let last ← piece lines[span.endLine - 1]? (takeBytes span.endCol)
    let middle := (lines.drop span.line).take (span.endLine - 1 - span.line)
    return first ++ middle.flatten ++ last

/-- The byte offsets of a node. With `verify`, the text between them has to be the text of the
lines of the span. -/
def offsets (s : Source) (span : Span) (decorators : List Expr) (verify : Bool) :
    Except SpanError (Nat × Nat) := do
  let (start, stop) ← s.offsetsFrom span decorators
  if verify then
    let text ← s.cut start stop
    let lines ← s.segment span
    if text != lines then throw (.differs (String.ofList text) (String.ofList lines))
  return (start, stop)

def statementText (s : Source) (stmt : Stmt) : Except SpanError (List Char) := do
  let (start, stop) ← s.offsetsFrom stmt.span stmt.decorators
  s.cut start stop

end Source

end TypeStub
