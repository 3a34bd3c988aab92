import TypeStub.Syntax.Tree
/-!
# Names in a tree

The names that occur anywhere in a tree, in the order in which they stand, whether they are read,
bound or deleted. Attributes, parameters, keywords and what an import binds are no names here.
-/

namespace TypeStub.Syntax

mutual

def Expr.names : Expr → List String
  | .boolOp _ _ values => namesAll values
  | .named _ target value => target.names ++ value.names
  | .binOp _ left _ right => left.names ++ right.names
  | .unaryOp _ _ operand => operand.names
  | .lambda _ params body => namesParams params ++ body.names
  | .ifExp _ test body orelse => test.names ++ body.names ++ orelse.names
  | .dict _ entries => namesEntries entries
  | .set _ elts => namesAll elts
  | .listComp _ elt clauses => elt.names ++ namesClauses clauses
  | .setComp _ elt clauses => elt.names ++ namesClauses clauses
  | .dictComp _ key value clauses => key.names ++ value.names ++ namesClauses clauses
  | .generator _ elt clauses => elt.names ++ namesClauses clauses
  | .await _ value => value.names
  | .yield _ value => namesOption value
  | .yieldFrom _ value => value.names
  | .compare _ left rest => left.names ++ namesComparisons rest
  | .call _ func args keywords => func.names ++ namesAll args ++ namesKeywords keywords
  | .formatted _ value _ spec => value.names ++ namesOption spec
  | .joined _ parts => namesAll parts
  | .constant .. => []
  | .attribute _ value _ => value.names
  | .subscript _ value index => value.names ++ index.names
  | .starred _ value => value.names
  | .name _ id _ => [id]
  | .list _ elts => namesAll elts
  | .tuple _ elts => namesAll elts
  | .slice _ lower upper step => namesOption lower ++ namesOption upper ++ namesOption step

def namesAll : List Expr → List String
  | [] => []
  | e :: rest => e.names ++ namesAll rest

def namesOption : Option Expr → List String
  | none => []
  | some e => e.names

def namesOptions : List (Option Expr) → List String
  | [] => []
  | e :: rest => namesOption e ++ namesOptions rest

def namesEntry : Entry Expr → List String
  | { key, value } => namesOption key ++ value.names

def namesEntries : List (Entry Expr) → List String
  | [] => []
  | e :: rest => namesEntry e ++ namesEntries rest

def namesClause : Clause Expr → List String
  | { target, iter, conditions, isAsync := _ } =>
    target.names ++ iter.names ++ namesAll conditions

def namesClauses : List (Clause Expr) → List String
  | [] => []
  | c :: rest => namesClause c ++ namesClauses rest

def namesComparison : Comparison Expr → List String
  | { op := _, right } => right.names

def namesComparisons : List (Comparison Expr) → List String
  | [] => []
  | c :: rest => namesComparison c ++ namesComparisons rest

def namesKeyword : Keyword Expr → List String
  | { name := _, value } => value.names

def namesKeywords : List (Keyword Expr) → List String
  | [] => []
  | k :: rest => namesKeyword k ++ namesKeywords rest

def namesParam : Param Expr → List String
  | { name := _, annot, typeComment := _ } => namesOption annot

def namesParamList : List (Param Expr) → List String
  | [] => []
  | p :: rest => namesParam p ++ namesParamList rest

def namesParamOption : Option (Param Expr) → List String
  | none => []
  | some p => namesParam p

def namesParams : Params Expr → List String
  | { posOnly, args, vararg, kwOnly, kwDefaults, kwarg, defaults } =>
    namesParamList posOnly ++ namesParamList args ++ namesParamOption vararg
      ++ namesParamList kwOnly ++ namesOptions kwDefaults ++ namesParamOption kwarg
      ++ namesAll defaults

end

mutual

def Pattern.names : Pattern → List String
  | .value e => e.names
  | .singleton _ => []
  | .sequence patterns => patternNamesAll patterns
  | .mapping entries _ => patternNamesEntries entries
  | .classOf cls patterns keywords =>
    cls.names ++ patternNamesAll patterns ++ patternNamesKeywords keywords
  | .star _ => []
  | .as pattern _ => patternNamesOption pattern
  | .or patterns => patternNamesAll patterns

def patternNamesAll : List Pattern → List String
  | [] => []
  | p :: rest => p.names ++ patternNamesAll rest

def patternNamesOption : Option Pattern → List String
  | none => []
  | some p => p.names

def patternNamesEntries : List (Expr × Pattern) → List String
  | [] => []
  | (e, p) :: rest => e.names ++ p.names ++ patternNamesEntries rest

def patternNamesKeywords : List (String × Pattern) → List String
  | [] => []
  | (_, p) :: rest => p.names ++ patternNamesKeywords rest

end

/-- The names in the context managers of a `with` statement and in their targets. -/
def namesItems (items : List WithItem) : List String :=
  items.flatMap fun item => item.context.names ++ namesOption item.target

mutual

def Stmt.names : Stmt → List String
  | .functionDef _ head body =>
    namesParams head.params ++ stmtNamesAll body ++ namesAll head.decorators
      ++ namesOption head.returns
  | .classDef _ head body =>
    namesAll head.bases ++ namesKeywords head.keywords ++ stmtNamesAll body
      ++ namesAll head.decorators
  | .ret _ value => namesOption value
  | .delete _ targets => namesAll targets
  | .assign _ targets value _ => namesAll targets ++ value.names
  | .augAssign _ target _ value => target.names ++ value.names
  | .annAssign _ target annot value _ => target.names ++ annot.names ++ namesOption value
  | .forLoop _ _ target iter body orelse _ =>
    target.names ++ iter.names ++ stmtNamesAll body ++ stmtNamesAll orelse
  | .whileLoop _ test body orelse => test.names ++ stmtNamesAll body ++ stmtNamesAll orelse
  | .ifElse _ test body orelse => test.names ++ stmtNamesAll body ++ stmtNamesAll orelse
  | .withBlock _ _ items body _ => namesItems items ++ stmtNamesAll body
  | .matchCases _ subject cases => subject.names ++ stmtNamesCases cases
  | .raise _ exc cause => namesOption exc ++ namesOption cause
  | .tryBlock _ _ body handlers orelse finalbody =>
    stmtNamesAll body ++ stmtNamesHandlers handlers ++ stmtNamesAll orelse
      ++ stmtNamesAll finalbody
  | .assert _ test msg => test.names ++ namesOption msg
  | .expr _ value => value.names
  | .imports .. | .importFrom .. | .global .. | .nonlocal .. | .pass _ | .break _
  | .continue _ => []

def stmtNamesAll : List Stmt → List String
  | [] => []
  | s :: rest => s.names ++ stmtNamesAll rest

def stmtNamesHandlers : List (Handler Stmt) → List String
  | [] => []
  | { kind, name := _, body } :: rest =>
    namesOption kind ++ stmtNamesAll body ++ stmtNamesHandlers rest

def stmtNamesCases : List (Case Stmt) → List String
  | [] => []
  | { pattern, guard, body } :: rest =>
    pattern.names ++ namesOption guard ++ stmtNamesAll body ++ stmtNamesCases rest

end

end TypeStub.Syntax
