import TypeStub.Filter.Context
import TypeStub.Regex
import TypeStub.Syntax.Tree
import TypeStub.Text.Quoted
/-!
# Conditions

The conditions that a filter is built from, and which expressions denote one.
-/

namespace TypeStub.Filter

open TypeStub.Syntax

/-- A condition on a context. Patterns are lists of code points. -/
inductive Condition
  | const (value : Bool)
  | asks (subject : Subject) (pattern : List Nat)
  | not (operand : Condition)
  | and (operands : List Condition)
  | or (operands : List Condition)

namespace Condition

mutual

def ofExpr? : Expr → Option Condition
  | .constant _ (.bool value) => some (.const value)
  | .call _ (.name _ id .load) [.constant _ (.str pattern false)] [] =>
    (Subject.ofFunctionName? id).map fun subject => .asks subject pattern
  | .unaryOp _ .not operand => (ofExpr? operand).map .not
  | .boolOp _ .and values => (ofExprs? values).map .and
  | .boolOp _ .or values => (ofExprs? values).map .or
  | _ => none

def ofExprs? : List Expr → Option (List Condition)
  | [] => some []
  | e :: rest => do
    let c ← ofExpr? e
    let cs ← ofExprs? rest
    return c :: cs

end

open TypeStub.Regex in
def askEval (subject : Subject) (pattern : List Nat) (ctx : Context) : Except RegexError Bool :=
  matchesAny pattern ((subject.texts ctx).map Text.points)

open TypeStub.Regex in
mutual

/-- The truth of a condition in a context. Operands are looked at from left to right, and only as
far as they are needed. -/
def eval (ctx : Context) : Condition → Except RegexError Bool
  | .const value => .ok value
  | .asks subject pattern => askEval subject pattern ctx
  | .not operand => do
    let b ← eval ctx operand
    return !b
  | .and operands => evalAnd ctx operands
  | .or operands => evalOr ctx operands

def evalAnd (ctx : Context) : List Condition → Except RegexError Bool
  | [] => .ok true
  | c :: rest => do
    let b ← eval ctx c
    if b then evalAnd ctx rest else return false

def evalOr (ctx : Context) : List Condition → Except RegexError Bool
  | [] => .ok false
  | c :: rest => do
    let b ← eval ctx c
    if b then return true else evalOr ctx rest

end

end Condition

end TypeStub.Filter
