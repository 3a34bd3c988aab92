import TypeStub.Proofs.Stub.Lines
import TypeStub.Proofs.Syntax.Unplaced
/-!
# What a stub may show of a module

`Stmt.erased` takes out of a statement what is an implementation: the bodies of functions but for a
string at their start, the default values of parameters, what a `try` statement does besides its
body, what a `with` statement enters, and the contents of statements that only do something.
Positions go with it.

What is left is read as a tree, with two exceptions: strings that stand as statements and
`Literal[…]` in types are copied from the source. `keptSpans` lists where these stand.
-/

namespace TypeStub

open TypeStub.Syntax

namespace Syntax

/-! ## Erasing -/

def Expr.hole : Expr := .constant .nowhere .ellipsis

/-- Parameters that only tell which of them have a default value. -/
def Params.erased (ps : Params Expr) : Params Expr :=
  { posOnly := ps.posOnly.map unplacedParam
    args := ps.args.map unplacedParam
    vararg := ps.vararg.map unplacedParam
    kwOnly := ps.kwOnly.map unplacedParam
    kwDefaults := ps.kwDefaults.map (Option.map fun _ => .hole)
    kwarg := ps.kwarg.map unplacedParam
    defaults := ps.defaults.map fun _ => .hole }

def FunctionHead.erased (head : FunctionHead) : FunctionHead :=
  { head with
    params := head.params.erased
    decorators := head.decorators.map Expr.unplaced
    returns := head.returns.map Expr.unplaced }

theorem FunctionHead.erased_eq_iff {head head' : FunctionHead} : head.erased = head'.erased ↔
      head.name = head'.name ∧ head.params.erased = head'.params.erased ∧
        head.decorators.map Expr.unplaced = head'.decorators.map Expr.unplaced ∧
        head.returns.map Expr.unplaced = head'.returns.map Expr.unplaced ∧
        head.typeComment = head'.typeComment ∧ head.isAsync = head'.isAsync := by
  simp only [FunctionHead.erased, FunctionHead.mk.injEq]

def ClassHead.unplaced (head : ClassHead) : ClassHead :=
  { head with
    bases := head.bases.map Expr.unplaced
    keywords := head.keywords.map unplacedKeyword
    decorators := head.decorators.map Expr.unplaced }

theorem ClassHead.unplaced_eq_iff {head head' : ClassHead} : head.unplaced = head'.unplaced ↔
      head.name = head'.name ∧ head.bases.map Expr.unplaced = head'.bases.map Expr.unplaced ∧
        head.keywords.map unplacedKeyword = head'.keywords.map unplacedKeyword ∧
        head.decorators.map Expr.unplaced = head'.decorators.map Expr.unplaced := by
  simp only [ClassHead.unplaced, ClassHead.mk.injEq]

def leadingString : List Stmt → List Stmt
  | .expr _ value :: _ => if value.isString then [.expr .nowhere value.unplaced] else []
  | _ => []

mutual

/-- A statement without positions and without implementation. -/
def Stmt.erased : Stmt → Stmt
  | .functionDef _ head body => .functionDef .nowhere head.erased (leadingString body)
  | .classDef _ head body => .classDef .nowhere head.unplaced (erasedAll body)
  | .ret _ value => .ret .nowhere (value.map Expr.unplaced)
  | .delete _ _ => .delete .nowhere []
  | .assign _ targets value comment =>
    .assign .nowhere (targets.map Expr.unplaced) value.unplaced comment
  | .augAssign _ _ _ _ => .augAssign .nowhere .hole .add .hole
  | .annAssign _ target annot value simple =>
    .annAssign .nowhere target.unplaced annot.unplaced (value.map Expr.unplaced) simple
  | .forLoop _ isAsync _ _ _ _ _ => .forLoop .nowhere isAsync .hole .hole [] [] none
  | .whileLoop _ _ _ _ => .whileLoop .nowhere .hole [] []
  | .ifElse _ test body orelse =>
    .ifElse .nowhere test.unplaced (erasedAll body) (erasedAll orelse)
  | .withBlock _ isAsync _ body comment => .withBlock .nowhere isAsync [] (erasedAll body) comment
  | .matchCases _ _ _ => .matchCases .nowhere .hole []
  | .raise _ _ _ => .raise .nowhere none none
  | .tryBlock _ isStar body _ _ _ => .tryBlock .nowhere isStar (erasedAll body) [] [] []
  | .assert _ _ _ => .assert .nowhere .hole none
  | .imports _ names => .imports .nowhere names
  | .importFrom _ module names level => .importFrom .nowhere module names level
  | .global _ names => .global .nowhere names
  | .nonlocal _ names => .nonlocal .nowhere names
  | .expr _ value => .expr .nowhere value.unplaced
  | .pass _ => .pass .nowhere
  | .break _ => .break .nowhere
  | .continue _ => .continue .nowhere

def erasedAll : List Stmt → List Stmt
  | [] => []
  | stmt :: rest => stmt.erased :: erasedAll rest

end

/-! ## What is copied from the source -/

/-- Whether an expression is printed as `Literal`. -/
def Expr.isLiteralHead (e : Expr) : Bool :=
  match e.render with
  | .ok text => text == "Literal"
  | .error _ => false

mutual

/-- Where `Literal[…]` stands in a type. -/
def Expr.literalSpans : Expr → List Span
  | .subscript span value index => if value.isLiteralHead then [span] else index.literalSpans
  | .tuple _ elts => literalSpansAll elts
  | .list _ elts => literalSpansAll elts
  | .binOp _ left .bitOr right => left.literalSpans ++ right.literalSpans
  | _ => []

def literalSpansAll : List Expr → List Span
  | [] => []
  | e :: rest => e.literalSpans ++ literalSpansAll rest

end

def literalSpansOption : Option Expr → List Span
  | none => []
  | some e => e.literalSpans

def paramSpans : List (Param Expr) → List Span
  | [] => []
  | p :: rest => literalSpansOption p.annot ++ paramSpans rest

/-- Where `Literal[…]` stands in the types of parameters. -/
def Params.literalSpans (ps : Params Expr) : List Span :=
  paramSpans ps.posOnly ++ (paramSpans ps.args ++ (paramSpans ps.vararg.toList
    ++ (paramSpans ps.kwOnly ++ paramSpans ps.kwarg.toList)))

/-- Where the string at the start of a body stands. -/
def leadingSpan : List Stmt → List Span
  | .expr span value :: _ => if value.isString then [span] else []
  | _ => []

mutual

/-- Where strings and `Literal[…]` stand in what is left of a statement. -/
def Stmt.keptSpans : Stmt → List Span
  | .functionDef _ head body =>
    head.params.literalSpans ++ (literalSpansOption head.returns ++ leadingSpan body)
  | .classDef _ _ body => keptSpansAll body
  | .annAssign _ _ annot _ _ => annot.literalSpans
  | .ifElse _ _ body orelse => keptSpansAll body ++ keptSpansAll orelse
  | .withBlock _ _ _ body _ => keptSpansAll body
  | .tryBlock _ _ body _ _ _ => keptSpansAll body
  | .expr span value => if value.isString then [span] else []
  | _ => []

def keptSpansAll : List Stmt → List Span
  | [] => []
  | stmt :: rest => stmt.keptSpans ++ keptSpansAll rest

end

/-! ## The form of a statement -/

theorem isString_unplaced (e : Expr) : e.unplaced.isString = e.isString := by
  cases e with
  | constant _ value => cases value <;> rfl
  | _ => simp only [Expr.unplaced, Expr.isString]

section Forms

variable {stmt : Stmt}

theorem nil_of_erasedAll {stmts} (h : [] = erasedAll stmts) : stmts = [] := by
  cases stmts with
  | nil => rfl
  | cons stmt rest => cases h

theorem cons_of_erasedAll {stmts rest} (h : erasedAll (stmt :: rest) = erasedAll stmts) :
    ∃ stmt' rest', stmts = stmt' :: rest' ∧ stmt.erased = stmt'.erased ∧
      erasedAll rest = erasedAll rest' := by
  cases stmts with
  | nil => cases h
  | cons stmt' rest' =>
    rw [erasedAll, erasedAll] at h
    obtain ⟨hstmt, hrest⟩ := List.cons.inj h
    exact ⟨stmt', rest', rfl, hstmt, hrest⟩

end Forms

end Syntax

end TypeStub
