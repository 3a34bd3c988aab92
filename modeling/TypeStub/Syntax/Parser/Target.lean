import TypeStub.Syntax.Tree
/-!
# Targets

What can be bound, deleted or changed is read as an expression first and then checked.
-/

namespace TypeStub.Syntax

/-- What is wanted of a target: binding allows starred targets, deleting does not. -/
inductive TargetKind where
  | bind
  | delete
  deriving DecidableEq

mutual

/-- The expression as a target, if it is one: names, attributes and subscripts, and tuples and
lists of targets. -/
def Expr.toTarget? (kind : TargetKind) : Expr → Option Expr
  | .name s id _ =>
    some (.name s id (match kind with
      | .bind => .store
      | .delete => .delete))
  | .attribute s v a => some (.attribute s v a)
  | .subscript s v i => some (.subscript s v i)
  | .starred s v =>
    match kind with
    | .bind => (v.toTarget? kind).map (.starred s)
    | .delete => none
  | .tuple s elts => (toTargets? kind elts).map (.tuple s)
  | .list s elts => (toTargets? kind elts).map (.list s)
  | _ => none

def toTargets? (kind : TargetKind) : List Expr → Option (List Expr)
  | [] => some []
  | e :: rest =>
    match e.toTarget? kind, toTargets? kind rest with
    | some t, some ts => some (t :: ts)
    | _, _ => none

end

def Expr.toSingleTarget? : Expr → Option Expr
  | .name s id _ => some (.name s id .store)
  | .attribute s v a => some (.attribute s v a)
  | .subscript s v i => some (.subscript s v i)
  | _ => none

end TypeStub.Syntax
