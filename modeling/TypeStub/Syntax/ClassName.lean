import TypeStub.Syntax.Tree
/-!
# Names of the forms

What the forms of expressions and statements are called in messages.
-/

namespace TypeStub.Syntax

def Expr.className : Expr → String
  | .boolOp .. => "BoolOp"
  | .named .. => "NamedExpr"
  | .binOp .. => "BinOp"
  | .unaryOp .. => "UnaryOp"
  | .lambda .. => "Lambda"
  | .ifExp .. => "IfExp"
  | .dict .. => "Dict"
  | .set .. => "Set"
  | .listComp .. => "ListComp"
  | .setComp .. => "SetComp"
  | .dictComp .. => "DictComp"
  | .generator .. => "GeneratorExp"
  | .await .. => "Await"
  | .yield .. => "Yield"
  | .yieldFrom .. => "YieldFrom"
  | .compare .. => "Compare"
  | .call .. => "Call"
  | .formatted .. => "FormattedValue"
  | .joined .. => "JoinedStr"
  | .constant .. => "Constant"
  | .attribute .. => "Attribute"
  | .subscript .. => "Subscript"
  | .starred .. => "Starred"
  | .name .. => "Name"
  | .list .. => "List"
  | .tuple .. => "Tuple"
  | .slice .. => "Slice"

def Stmt.className : Stmt → String
  | .functionDef _ head _ => if head.isAsync then "AsyncFunctionDef" else "FunctionDef"
  | .classDef .. => "ClassDef"
  | .ret .. => "Return"
  | .delete .. => "Delete"
  | .assign .. => "Assign"
  | .augAssign .. => "AugAssign"
  | .annAssign .. => "AnnAssign"
  | .forLoop _ isAsync .. => if isAsync then "AsyncFor" else "For"
  | .whileLoop .. => "While"
  | .ifElse .. => "If"
  | .withBlock _ isAsync .. => if isAsync then "AsyncWith" else "With"
  | .matchCases .. => "Match"
  | .raise .. => "Raise"
  | .tryBlock _ isStar .. => if isStar then "TryStar" else "Try"
  | .assert .. => "Assert"
  | .imports .. => "Import"
  | .importFrom .. => "ImportFrom"
  | .global .. => "Global"
  | .nonlocal .. => "Nonlocal"
  | .expr .. => "Expr"
  | .pass _ => "Pass"
  | .break _ => "Break"
  | .continue _ => "Continue"

end TypeStub.Syntax
