import TypeStub.Syntax.Tree
import TypeStub.Text.Quoted
/-!
# Printing expressions

The canonical text of an expression. Brackets are written where an operand binds looser than its
place demands; a place is given by the least level that needs no brackets there.
-/

namespace TypeStub.Syntax

open TypeStub.Number TypeStub.Text

/-- Why a tree has no text: the expression of a formatted string cannot be written without a
backslash, or an integer has too many digits. -/
inductive PrintError where
  | backslashInFormat
  | integerTooLong
  deriving DecidableEq, Repr

/-! ## Levels of binding, loosest first -/

namespace Level

def named : Nat := 1
def tuple : Nat := 2
def yield : Nat := 3
def test : Nat := 4
def or : Nat := 5
def and : Nat := 6
def not : Nat := 7
def compare : Nat := 8
def bitOr : Nat := 9
def bitXor : Nat := 10
def bitAnd : Nat := 11
def shift : Nat := 12
def arith : Nat := 13
def term : Nat := 14
def factor : Nat := 15
def power : Nat := 16
def await : Nat := 17
def atom : Nat := 18

def next (level : Nat) : Nat :=
  min atom (level + 1)

end Level

def BoolOp.text : BoolOp → String
  | .and => "and"
  | .or => "or"

def BoolOp.level : BoolOp → Nat
  | .and => Level.and
  | .or => Level.or

def BinaryOp.text : BinaryOp → String
  | .add => "+"
  | .sub => "-"
  | .mult => "*"
  | .matMult => "@"
  | .div => "/"
  | .mod => "%"
  | .pow => "**"
  | .lShift => "<<"
  | .rShift => ">>"
  | .bitOr => "|"
  | .bitXor => "^"
  | .bitAnd => "&"
  | .floorDiv => "//"

def BinaryOp.level : BinaryOp → Nat
  | .add | .sub => Level.arith
  | .mult | .matMult | .div | .mod | .floorDiv => Level.term
  | .pow => Level.power
  | .lShift | .rShift => Level.shift
  | .bitOr => Level.bitOr
  | .bitXor => Level.bitXor
  | .bitAnd => Level.bitAnd

/-- The levels that the two operands need: of operators that group to the left, the right operand
has to bind tighter. -/
def BinaryOp.operandLevels (op : BinaryOp) : Nat × Nat :=
  match op with
  | .pow => (Level.next op.level, op.level)
  | _ => (op.level, Level.next op.level)

def UnaryOp.text : UnaryOp → String
  | .invert => "~"
  | .not => "not "
  | .plus => "+"
  | .minus => "-"

def UnaryOp.level : UnaryOp → Nat
  | .not => Level.not
  | _ => Level.factor

def CompareOp.text : CompareOp → String
  | .eq => "=="
  | .notEq => "!="
  | .lt => "<"
  | .ltE => "<="
  | .gt => ">"
  | .gtE => ">="
  | .is => "is"
  | .isNot => "is not"
  | .isIn => "in"
  | .notIn => "not in"

/-- Brackets around a text where a place needs a tighter level than the text has. -/
def bracketIf (level own : Nat) (text : String) : String :=
  if level > own then "(" ++ text ++ ")" else text

def tupleItems : List String → String
  | [one] => one ++ ","
  | many => join ", " many

/-! ## Constants -/

/-- How floating point literals are written: an infinite value as a literal that overflows. -/
def floatLiteral : Binary64.DecimalFormat := { infinity := "1e309", keepPoint := true }

def imaginaryLiteral : Binary64.DecimalFormat := { infinity := "1e309", keepPoint := false }

/-- The text of a constant. With `sparse`, a text is written with as few backslashes as
possible. -/
def Constant.print (sparse : Bool) : Constant → Except PrintError String
  | .none => .ok "None"
  | .bool b => .ok (if b then "True" else "False")
  | .ellipsis => .ok "..."
  | .int n => if n < Nat.pow 10 4300 then .ok (decimal n) else .error .integerTooLong
  | .float x => .ok (x.render floatLiteral)
  | .imaginary x => .ok (x.render imaginaryLiteral ++ "j")
  | .str ps marked =>
    let text := if sparse then sparselyQuoted QuoteMark.all ps else quoted ps
    .ok (if marked then "u" ++ text else text)
  | .bytes os => .ok (quotedBytes os)

def doubleBraces (ps : List Nat) : List Nat :=
  ps.flatMap fun n => if n == 0x7b || n == 0x7d then [n, n] else [n]

def enclosedParts : List QuoteMark → List (List Nat × Bool) →
    Option (List (List Char) × List QuoteMark)
  | marks, [] => some ([], marks)
  | marks, (part, isLiteral) :: rest =>
    let (body, possible) := literalBody marks isLiteral part
    if possible.any marks.contains then
      (enclosedParts possible rest).map fun (bodies, marks) => (body :: bodies, marks)
    else none

/-- The inside of a part as it stands in single quotes, for parts that no quotes can enclose. -/
def forcedPart (part : List Nat) : List Char :=
  part.flatMap fun n => if n == 39 then ['\\', '\''] else shownPoint n

def formattedLiteral (parts : List (List Nat × Bool)) : String :=
  match enclosedParts QuoteMark.all parts with
  | some (bodies, marks) =>
    let mark := (marks.headD .single).chars
    String.ofList (mark ++ bodies.flatten ++ mark)
  | none =>
    let mark := QuoteMark.chars .tripleSingle
    String.ofList (mark ++ (parts.flatMap fun (p, _) => forcedPart p) ++ mark)

/-- An expression in the braces of a formatted string, braces included, from its text, its
conversion and its format specification. A second opening brace is kept apart from the first. -/
def fieldPoints (text : String) (conversion : Option Char) (spec : List Nat) :
    Except PrintError (List Nat) :=
  if text.toList.contains '\\' then .error .backslashInFormat
  else
    let gap := if text.toList.head? == some '\x7b' then " " else ""
    let mark := conversion.elim "" fun c => "!" ++ String.ofList [c]
    .ok (points ("\x7b" ++ gap ++ text ++ mark) ++ spec ++ points "\x7d")

/-! ## Parameters -/

/-- Which of the parameters have a default value, given how many there are. The values belong to
the last parameters. -/
def alignDefaults {α : Type} (count : Nat) (defaults : List α) : List (Option α) :=
  List.replicate (count - defaults.length) none ++ defaults.map some

def withDefault (param : String) : Option String → String
  | none => param
  | some value => param ++ "=" ++ value

def paramTexts (posOnly args : List String) (defaults : List String) (vararg : Option String)
    (kwOnly : List String) (kwDefaults : List (Option String)) (kwarg : Option String) :
    List String :=
  let aligned := alignDefaults (posOnly.length + args.length) defaults
  let positional := List.zipWith withDefault (posOnly ++ args) aligned
  let (before, after) := positional.splitAt posOnly.length
  let slash := if posOnly.isEmpty then [] else ["/"]
  let star := match vararg with
    | some v => ["*" ++ v]
    | none => if kwOnly.isEmpty then [] else ["*"]
  before ++ slash ++ after ++ star ++ List.zipWith withDefault kwOnly kwDefaults
    ++ (kwarg.map ("**" ++ ·)).toList

/-! ## Expressions -/

/-- Whether an expression is an integer literal, behind which a point needs a blank; the truth
values count as integers. -/
def Expr.isIntLiteral : Expr → Bool
  | .constant _ (.int _) | .constant _ (.bool _) => true
  | _ => false

/-- The level of the place in the brackets of a subscript: a tuple needs no brackets of its own
there. -/
def Expr.indexLevel : Expr → Nat
  | .tuple .. => Level.tuple
  | _ => Level.test

def Expr.isTextLiteral : Expr → Bool
  | .constant _ (.str ..) => true
  | _ => false

mutual

/-- The text of an expression at a place of the given level. With `sparse`, it stands in the
braces of a formatted string, where no backslashes are allowed. -/
def Expr.print (sparse : Bool) (level : Nat) : Expr → Except PrintError String
  | .boolOp _ op values => do
    let texts ← printOperands sparse (Level.next op.level) values
    return bracketIf level op.level (join (" " ++ op.text ++ " ") texts)
  | .named _ target value => do
    let t ← target.print sparse Level.atom
    let v ← value.print sparse Level.atom
    return bracketIf level Level.named (t ++ " := " ++ v)
  | .binOp _ left op right => do
    let l ← left.print sparse op.operandLevels.1
    let r ← right.print sparse op.operandLevels.2
    return bracketIf level op.level (l ++ " " ++ op.text ++ " " ++ r)
  | .unaryOp _ op operand => do
    let e ← operand.print sparse op.level
    return bracketIf level op.level (op.text ++ e)
  | .lambda _ params body => do
    let ps ← printParams sparse params
    let b ← body.print sparse Level.test
    let head := if ps.isEmpty then "lambda" else "lambda " ++ join ", " ps
    return bracketIf level Level.test (head ++ ": " ++ b)
  | .ifExp _ test body orelse => do
    let b ← body.print sparse (Level.next Level.test)
    let t ← test.print sparse (Level.next Level.test)
    let o ← orelse.print sparse Level.test
    return bracketIf level Level.test (b ++ " if " ++ t ++ " else " ++ o)
  | .dict _ entries => do
    let texts ← printEntries sparse entries
    return "\x7b" ++ join ", " texts ++ "\x7d"
  | .set _ elts => do
    let texts ← printAll sparse elts
    return if elts.isEmpty then "\x7b*()\x7d" else "\x7b" ++ join ", " texts ++ "\x7d"
  | .listComp _ elt clauses => do
    let e ← elt.print sparse Level.test
    let cs ← printClauses sparse clauses
    return "[" ++ e ++ cs ++ "]"
  | .setComp _ elt clauses => do
    let e ← elt.print sparse Level.test
    let cs ← printClauses sparse clauses
    return "\x7b" ++ e ++ cs ++ "\x7d"
  | .dictComp _ key value clauses => do
    let k ← key.print sparse Level.test
    let v ← value.print sparse Level.test
    let cs ← printClauses sparse clauses
    return "\x7b" ++ k ++ ": " ++ v ++ cs ++ "\x7d"
  | .generator _ elt clauses => do
    let e ← elt.print sparse Level.test
    let cs ← printClauses sparse clauses
    return "(" ++ e ++ cs ++ ")"
  | .await _ value => do
    let v ← value.print sparse Level.atom
    return bracketIf level Level.await ("await " ++ v)
  | .yield _ none => return bracketIf level Level.yield "yield"
  | .yield _ (some value) => do
    let v ← value.print sparse Level.atom
    return bracketIf level Level.yield ("yield " ++ v)
  | .yieldFrom _ value => do
    let v ← value.print sparse Level.atom
    return bracketIf level Level.yield ("yield from " ++ v)
  | .compare _ left rest => do
    let l ← left.print sparse (Level.next Level.compare)
    let r ← printComparisons sparse rest
    return bracketIf level Level.compare (l ++ r)
  | .call _ func args keywords => do
    let f ← func.print sparse Level.atom
    let as ← printAll sparse args
    let ks ← printKeywords sparse keywords
    return f ++ "(" ++ join ", " (as ++ ks) ++ ")"
  | .formatted _ value conversion spec => do
    let text ← value.print true (Level.next Level.test)
    let tail ← printSpec spec
    let inner ← fieldPoints text conversion tail
    return String.ofList (inner.map Char.ofNat)
  | .joined _ parts => do
    if sparse then
      let inner ← printJoined parts
      return "f" ++ sparselyQuoted QuoteMark.all inner
    else
      let inner ← printParts parts
      return "f" ++ formattedLiteral inner
  | .constant _ value => value.print sparse
  | .attribute _ value attr => do
    let v ← value.print sparse Level.atom
    return v ++ (if value.isIntLiteral then " ." else ".") ++ attr
  | .subscript _ value index => do
    let v ← value.print sparse Level.atom
    let i ← index.print sparse index.indexLevel
    return v ++ "[" ++ i ++ "]"
  | .starred _ value => do
    let v ← value.print sparse Level.bitOr
    return "*" ++ v
  | .name _ id _ => return id
  | .list _ elts => do
    let texts ← printAll sparse elts
    return "[" ++ join ", " texts ++ "]"
  | .tuple _ elts => do
    let texts ← printAll sparse elts
    if elts.isEmpty then return "()"
    else return bracketIf level Level.tuple (tupleItems texts)
  | .slice _ lower upper step => do
    let l ← printOption sparse lower
    let u ← printOption sparse upper
    let s ← printOption sparse step
    return l.getD "" ++ ":" ++ u.getD "" ++ (s.elim "" (":" ++ ·))

def printAll (sparse : Bool) : List Expr → Except PrintError (List String)
  | [] => return []
  | e :: rest => do
    let t ← e.print sparse Level.test
    let ts ← printAll sparse rest
    return t :: ts

/-- The operands of `and` or `or`: each has to bind tighter than the one before. -/
def printOperands (sparse : Bool) (level : Nat) : List Expr → Except PrintError (List String)
  | [] => return []
  | e :: rest => do
    let t ← e.print sparse level
    let ts ← printOperands sparse (Level.next level) rest
    return t :: ts

def printOption (sparse : Bool) : Option Expr → Except PrintError (Option String)
  | none => return none
  | some e => do
    let t ← e.print sparse Level.test
    return some t

def printOptions (sparse : Bool) : List (Option Expr) → Except PrintError (List (Option String))
  | [] => return []
  | e :: rest => do
    let t ← printOption sparse e
    let ts ← printOptions sparse rest
    return t :: ts

def printEntry (sparse : Bool) : Entry Expr → Except PrintError String
  | { key := none, value } => do
    let v ← value.print sparse Level.bitOr
    return "**" ++ v
  | { key := some key, value } => do
    let k ← key.print sparse Level.test
    let v ← value.print sparse Level.test
    return k ++ ": " ++ v

def printEntries (sparse : Bool) : List (Entry Expr) → Except PrintError (List String)
  | [] => return []
  | e :: rest => do
    let t ← printEntry sparse e
    let ts ← printEntries sparse rest
    return t :: ts

def printConditions (sparse : Bool) : List Expr → Except PrintError String
  | [] => return ""
  | e :: rest => do
    let t ← e.print sparse (Level.next Level.test)
    let ts ← printConditions sparse rest
    return " if " ++ t ++ ts

def printClause (sparse : Bool) : Clause Expr → Except PrintError String
  | { target, iter, conditions, isAsync } => do
    let t ← target.print sparse Level.tuple
    let i ← iter.print sparse (Level.next Level.test)
    let cs ← printConditions sparse conditions
    return (if isAsync then " async for " else " for ") ++ t ++ " in " ++ i ++ cs

def printClauses (sparse : Bool) : List (Clause Expr) → Except PrintError String
  | [] => return ""
  | c :: rest => do
    let t ← printClause sparse c
    let ts ← printClauses sparse rest
    return t ++ ts

def printComparison (sparse : Bool) : Comparison Expr → Except PrintError String
  | { op, right } => do
    let r ← right.print sparse (Level.next Level.compare)
    return " " ++ op.text ++ " " ++ r

def printComparisons (sparse : Bool) : List (Comparison Expr) → Except PrintError String
  | [] => return ""
  | c :: rest => do
    let t ← printComparison sparse c
    let ts ← printComparisons sparse rest
    return t ++ ts

def printKeyword (sparse : Bool) : Keyword Expr → Except PrintError String
  | { name, value } => do
    let v ← value.print sparse Level.test
    return (name.elim "**" (· ++ "=")) ++ v

def printKeywords (sparse : Bool) : List (Keyword Expr) → Except PrintError (List String)
  | [] => return []
  | k :: rest => do
    let t ← printKeyword sparse k
    let ts ← printKeywords sparse rest
    return t :: ts

def printParam (sparse : Bool) : Param Expr → Except PrintError String
  | { name, annot, typeComment := _ } => do
    let a ← printOption sparse annot
    return name ++ (a.elim "" (": " ++ ·))

def printParamList (sparse : Bool) : List (Param Expr) → Except PrintError (List String)
  | [] => return []
  | p :: rest => do
    let t ← printParam sparse p
    let ts ← printParamList sparse rest
    return t :: ts

def printParamOption (sparse : Bool) : Option (Param Expr) → Except PrintError (Option String)
  | none => return none
  | some p => do
    let t ← printParam sparse p
    return some t

def printParams (sparse : Bool) : Params Expr → Except PrintError (List String)
  | { posOnly, args, vararg, kwOnly, kwDefaults, kwarg, defaults } => do
    let ps ← printParamList sparse posOnly
    let as ← printParamList sparse args
    let v ← printParamOption sparse vararg
    let ks ← printParamList sparse kwOnly
    let kds ← printOptions sparse kwDefaults
    let k ← printParamOption sparse kwarg
    let ds ← printAll sparse defaults
    return paramTexts ps as ds v ks kds k

/-- The format specification in the braces of a formatted string, with its colon. -/
def printSpec : Option Expr → Except PrintError (List Nat)
  | none => return []
  | some spec => do
    let inner ← printInner spec
    return points ":" ++ inner

/-- The inside of a part of a formatted string, before it is put in quotes. -/
def printInner : Expr → Except PrintError (List Nat)
  | .joined _ parts => printJoined parts
  | .constant _ (.str ps _) => return doubleBraces ps
  | .formatted _ value conversion spec => do
    let text ← value.print true (Level.next Level.test)
    let tail ← printSpec spec
    fieldPoints text conversion tail
  | _ => return []

def printJoined : List Expr → Except PrintError (List Nat)
  | [] => return []
  | e :: rest => do
    let t ← printInner e
    let ts ← printJoined rest
    return t ++ ts

def printParts : List Expr → Except PrintError (List (List Nat × Bool))
  | [] => return []
  | e :: rest => do
    let t ← printInner e
    let ts ← printParts rest
    return (t, e.isTextLiteral) :: ts

end

def Expr.render (e : Expr) : Except PrintError String :=
  e.print false Level.test

end TypeStub.Syntax
