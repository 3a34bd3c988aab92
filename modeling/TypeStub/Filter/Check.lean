import TypeStub.Filter.Context
import TypeStub.Syntax.ClassName
/-!
# Checking expressions

The check goes over an expression and collects reasons why it denotes no condition. Reasons that
were collected before are kept until a more specific one replaces them.
-/

namespace TypeStub.Filter

open TypeStub.Syntax

abbrev Check := StateM (List String) Bool

namespace Check

def fail (reason : String) : Check := do
  set [reason]
  return false

inductive ConstantKind
  | text
  | bool
  | int
  | float
  deriving DecidableEq, Repr

def ConstantKind.holds : ConstantKind → Constant → Bool
  | .text, .str .. => true
  | .bool, .bool _ => true
  | .int, .int _ => true
  | .int, .bool _ => true
  | .float, .float _ => true
  | _, _ => false

def typeName : Constant → String
  | .none => "NoneType"
  | .bool _ => "bool"
  | .ellipsis => "ellipsis"
  | .int _ => "int"
  | .float _ => "float"
  | .imaginary _ => "complex"
  | .str .. => "str"
  | .bytes _ => "bytes"

def simpleConstant (kind : ConstantKind) (e : Expr) : Check :=
  match e with
  | .constant _ value =>
    if !kind.holds value then fail ("unsupported constant type: " ++ typeName value)
    else
      match value with
      | .str _ true => fail "unsupported node kind: u"
      | _ => return true
  | _ => fail ("expected ast.Constant, got: " ++ e.className)

def loadedName (e : Expr) : Check :=
  match e with
  | .name _ _ .load => return true
  | .name .. => fail "expected ast.Name with ctx ast.Load"
  | _ => fail "expected ast.Name"

def asking (func : Expr) (args : List Expr) (keywords : List (Keyword Expr)) : Check := do
  if !(← loadedName func) then fail "unsupported function syntax"
  else
    match func with
    | .name _ id _ =>
      if (Subject.ofFunctionName? id).isNone then fail "unsupported function name"
      else
        match keywords, args with
        | [], [arg] =>
          if ← simpleConstant .text arg then return true
          else fail "unsupported function argument"
        | _, _ => fail "unsupported function signature"
    | _ => fail "unsupported function syntax"

def orReject (e : Expr) (check : Check) : Check := do
  if ← check then return true
  else
    modify (· ++ ["unsupported type: ast." ++ e.className])
    return false

mutual

def allowed : Expr → Check
  | e@(.constant ..) => orReject e (simpleConstant .bool e)
  | e@(.call _ func args keywords) => orReject e (asking func args keywords)
  | e@(.boolOp _ _ values) => orReject e (allAllowed values)
  | e@(.unaryOp _ .not operand) => orReject e (allowed operand)
  | e => orReject e (return false)

def allAllowed : List Expr → Check
  | [] => return true
  | e :: rest => do
    if ← allowed e then allAllowed rest else return false

end

def reasons (e : Expr) : List String :=
  ((allowed e).run []).2

end Check

end TypeStub.Filter
