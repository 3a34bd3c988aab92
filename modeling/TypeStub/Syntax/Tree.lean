import TypeStub.Number.Binary64
/-!
# Syntax trees

The trees of Python modules. Every statement and every expression carries the span of source it
was read from as its first field; nothing else has a position. Containers of expressions
(parameters, keywords, comprehension clauses, …) are generic structures, so that they are ordinary
records with named fields.
-/

namespace TypeStub.Syntax

open TypeStub.Number

/-- A stretch of source text. Lines count from one, columns are UTF-8 byte offsets within their
line, and the end is exclusive. -/
structure Span where
  line : Nat
  col : Nat
  endLine : Nat
  endCol : Nat
  deriving DecidableEq, Repr, Inhabited

/-- The values a literal can have. The characters of a text are code points, because an escape
sequence can denote a surrogate; `marked` tells whether the literal was written with a `u` in
front. Numbers are never negative: a sign is an operator. -/
inductive Constant where
  | none
  | bool (value : Bool)
  | ellipsis
  | int (value : Nat)
  | float (value : Binary64)
  | imaginary (value : Binary64)
  | str (points : List Nat) (marked : Bool)
  | bytes (octets : List Nat)
  deriving DecidableEq, Repr, Inhabited

/-- Whether a name is read, bound or deleted where it stands. -/
inductive NameUse where
  | load
  | store
  | delete
  deriving DecidableEq, Repr, Inhabited

inductive BoolOp where
  | and
  | or
  deriving DecidableEq, Repr, Inhabited

inductive BinaryOp where
  | add
  | sub
  | mult
  | matMult
  | div
  | mod
  | pow
  | lShift
  | rShift
  | bitOr
  | bitXor
  | bitAnd
  | floorDiv
  deriving DecidableEq, Repr, Inhabited

inductive UnaryOp where
  | invert
  | not
  | plus
  | minus
  deriving DecidableEq, Repr, Inhabited

inductive CompareOp where
  | eq
  | notEq
  | lt
  | ltE
  | gt
  | gtE
  | is
  | isNot
  | isIn
  | notIn
  deriving DecidableEq, Repr, Inhabited

/-- A parameter of a function, with the expression that annotates it. -/
structure Param (ε : Type) where
  name : String
  annot : Option ε
  typeComment : Option String
  deriving Inhabited

/-- The parameters of a function. The values in `defaults` belong to the last of the positional
parameters (`posOnly` and then `args`); `kwDefaults` runs parallel to `kwOnly`. -/
structure Params (ε : Type) where
  posOnly : List (Param ε)
  args : List (Param ε)
  vararg : Option (Param ε)
  kwOnly : List (Param ε)
  kwDefaults : List (Option ε)
  kwarg : Option (Param ε)
  defaults : List ε
  deriving Inhabited

/-- A named argument of a call or a class; without a name it is a `**` unpacking. -/
structure Keyword (ε : Type) where
  name : Option String
  value : ε
  deriving Inhabited

/-- One `for … in … if …` clause of a comprehension. -/
structure Clause (ε : Type) where
  target : ε
  iter : ε
  conditions : List ε
  isAsync : Bool
  deriving Inhabited

/-- An entry of a dictionary display; without a key it is a `**` unpacking. -/
structure Entry (ε : Type) where
  key : Option ε
  value : ε
  deriving Inhabited

/-- The right-hand part of a comparison. -/
structure Comparison (ε : Type) where
  op : CompareOp
  right : ε
  deriving Inhabited

/-- Expressions. -/
inductive Expr where
  | boolOp (span : Span) (op : BoolOp) (values : List Expr)
  | named (span : Span) (target value : Expr)
  | binOp (span : Span) (left : Expr) (op : BinaryOp) (right : Expr)
  | unaryOp (span : Span) (op : UnaryOp) (operand : Expr)
  | lambda (span : Span) (params : Params Expr) (body : Expr)
  | ifExp (span : Span) (test body orelse : Expr)
  | dict (span : Span) (entries : List (Entry Expr))
  | set (span : Span) (elts : List Expr)
  | listComp (span : Span) (elt : Expr) (clauses : List (Clause Expr))
  | setComp (span : Span) (elt : Expr) (clauses : List (Clause Expr))
  | dictComp (span : Span) (key value : Expr) (clauses : List (Clause Expr))
  | generator (span : Span) (elt : Expr) (clauses : List (Clause Expr))
  | await (span : Span) (value : Expr)
  | yield (span : Span) (value : Option Expr)
  | yieldFrom (span : Span) (value : Expr)
  | compare (span : Span) (left : Expr) (rest : List (Comparison Expr))
  | call (span : Span) (func : Expr) (args : List Expr) (keywords : List (Keyword Expr))
  | formatted (span : Span) (value : Expr) (conversion : Option Char) (spec : Option Expr)
  | joined (span : Span) (parts : List Expr)
  | constant (span : Span) (value : Constant)
  | attribute (span : Span) (value : Expr) (attr : String)
  | subscript (span : Span) (value index : Expr)
  | starred (span : Span) (value : Expr)
  | name (span : Span) (id : String) (use : NameUse)
  | list (span : Span) (elts : List Expr)
  | tuple (span : Span) (elts : List Expr)
  | slice (span : Span) (lower upper step : Option Expr)
  deriving Inhabited

def Expr.span : Expr → Span
  | .boolOp s .. | .named s .. | .binOp s .. | .unaryOp s .. | .lambda s .. | .ifExp s ..
  | .dict s .. | .set s .. | .listComp s .. | .setComp s .. | .dictComp s .. | .generator s ..
  | .await s .. | .yield s .. | .yieldFrom s .. | .compare s .. | .call s .. | .formatted s ..
  | .joined s .. | .constant s .. | .attribute s .. | .subscript s .. | .starred s ..
  | .name s .. | .list s .. | .tuple s .. | .slice s .. => s

/-- The patterns of a `match` statement. -/
inductive Pattern where
  | value (value : Expr)
  | singleton (value : Constant)
  | sequence (patterns : List Pattern)
  | mapping (entries : List (Expr × Pattern)) (rest : Option String)
  | classOf (cls : Expr) (patterns : List Pattern) (keywords : List (String × Pattern))
  | star (name : Option String)
  | as (pattern : Option Pattern) (name : Option String)
  | or (patterns : List Pattern)
  deriving Inhabited

/-- An imported name and the name it is bound to, if one is given. -/
structure Alias where
  name : String
  asName : Option String
  deriving DecidableEq, Repr, Inhabited

/-- A context manager and the target it is bound to. -/
structure WithItem where
  context : Expr
  target : Option Expr
  deriving Inhabited

/-- What a function definition says before its body. -/
structure FunctionHead where
  name : String
  params : Params Expr
  decorators : List Expr
  returns : Option Expr
  typeComment : Option String
  isAsync : Bool
  deriving Inhabited

/-- What a class definition says before its body. -/
structure ClassHead where
  name : String
  bases : List Expr
  keywords : List (Keyword Expr)
  decorators : List Expr
  deriving Inhabited

/-- An `except` part of a `try` statement with the body type left open. -/
structure Handler (σ : Type) where
  kind : Option Expr
  name : Option String
  body : List σ
  deriving Inhabited

/-- A `case` part of a `match` statement with the body type left open. -/
structure Case (σ : Type) where
  pattern : Pattern
  guard : Option Expr
  body : List σ
  deriving Inhabited

/-- Statements. -/
inductive Stmt where
  | functionDef (span : Span) (head : FunctionHead) (body : List Stmt)
  | classDef (span : Span) (head : ClassHead) (body : List Stmt)
  | ret (span : Span) (value : Option Expr)
  | delete (span : Span) (targets : List Expr)
  | assign (span : Span) (targets : List Expr) (value : Expr) (typeComment : Option String)
  | augAssign (span : Span) (target : Expr) (op : BinaryOp) (value : Expr)
  | annAssign (span : Span) (target annot : Expr) (value : Option Expr) (simple : Bool)
  | forLoop (span : Span) (isAsync : Bool) (target iter : Expr) (body orelse : List Stmt)
      (typeComment : Option String)
  | whileLoop (span : Span) (test : Expr) (body orelse : List Stmt)
  | ifElse (span : Span) (test : Expr) (body orelse : List Stmt)
  | withBlock (span : Span) (isAsync : Bool) (items : List WithItem) (body : List Stmt)
      (typeComment : Option String)
  | matchCases (span : Span) (subject : Expr) (cases : List (Case Stmt))
  | raise (span : Span) (exc cause : Option Expr)
  | tryBlock (span : Span) (isStar : Bool) (body : List Stmt) (handlers : List (Handler Stmt))
      (orelse finalbody : List Stmt)
  | assert (span : Span) (test : Expr) (msg : Option Expr)
  | imports (span : Span) (names : List Alias)
  | importFrom (span : Span) (module : Option String) (names : List Alias) (level : Nat)
  | global (span : Span) (names : List String)
  | nonlocal (span : Span) (names : List String)
  | expr (span : Span) (value : Expr)
  | pass (span : Span)
  | break (span : Span)
  | continue (span : Span)
  deriving Inhabited

/-- The span a statement was read from; decorators stand outside it. -/
def Stmt.span : Stmt → Span
  | .functionDef s .. | .classDef s .. | .ret s .. | .delete s .. | .assign s ..
  | .augAssign s .. | .annAssign s .. | .forLoop s .. | .whileLoop s .. | .ifElse s ..
  | .withBlock s .. | .matchCases s .. | .raise s .. | .tryBlock s .. | .assert s ..
  | .imports s .. | .importFrom s .. | .global s .. | .nonlocal s .. | .expr s ..
  | .pass s | .break s | .continue s => s

/-- A module: its statements, and how many comments ask type checkers to ignore a line. -/
structure Module where
  body : List Stmt
  typeIgnores : Nat
  deriving Inhabited

end TypeStub.Syntax
