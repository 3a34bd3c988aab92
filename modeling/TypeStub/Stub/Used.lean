import TypeStub.Stub.Statement
import TypeStub.Syntax.Names
/-!
# Names in use

The names that a module needs: those that occur in its statements, except in imports, those that
`__all__` lists, and those in types that are written as strings in an alias.
-/

namespace TypeStub

open TypeStub.Syntax

namespace Source

def nodeText (e : Expr) : String :=
  "<ast." ++ e.className ++ " object>"

/-- The names that the value of `__all__` lists. -/
def listedNames : List Expr → StubM (List String)
  | [] => return []
  | .constant _ (.str points _) :: rest => do
    let more ← listedNames rest
    return (Text.ofPoints? points).toList.map String.ofList ++ more
  | e :: rest => do
    let text ← StubM.exprLine e
    StubM.sayUnexpected ("`__all__` list value " ++ text ++ " (" ++ nodeText e ++ ")")
    listedNames rest

def exportedNames (value : Option Expr) : StubM (List String) :=
  match value with
  | some (.list _ elts) => listedNames elts
  | some (.tuple _ elts) => listedNames elts
  | some e => do
    let text ← StubM.exprLine e
    StubM.sayUnexpected ("`__all__` value " ++ text ++ " (" ++ nodeText e ++ ")")
    return []
  | none => do
    StubM.sayUnexpected "`__all__` value  (None)"
    return []

def aliasNames (s : Source) (annot value : Option Expr) : StubM (List String) :=
  match annot, value with
  | some annot, some value => do
    let text ← StubM.exprLine annot
    if text == "TypeAlias" then
      let type ← s.typeText value
      let read ← StubM.ofRead (s.readExpr type.toList)
      return read.names
    else return []
  | _, _ => return []

def assignmentNames (s : Source) (targets : List Expr) (simple : Bool)
    (annot value : Option Expr) : StubM (List String) := do
  let inAlias ← s.aliasNames annot value
  let target ← Session.targetsText targets simple
  let exported ← if target == "__all__" then exportedNames value else pure []
  return inAlias ++ exported

def neededNames (s : Source) : Stmt → StubM (Option (List String))
  | .imports .. | .importFrom .. => return none
  | .assign span targets value comment => do
    let more ← s.assignmentNames targets true none (some value)
    return some ((Stmt.assign span targets value comment).names ++ more)
  | .annAssign span target annot value simple => do
    let more ← s.assignmentNames [target] simple (some annot) value
    return some ((Stmt.annAssign span target annot value simple).names ++ more)
  | stmt => return some stmt.names

/-- The names that several statements need beside those in `used`. A module of imports only needs
none, and its imports are not looked at. -/
def usedNames (s : Source) (used : Option (List String)) :
    List Stmt → StubM (Option (List String))
  | [] => return used
  | stmt :: rest => do
    match ← s.neededNames stmt with
    | none => s.usedNames used rest
    | some names => s.usedNames (some (used.getD [] ++ names)) rest

end Source

end TypeStub
