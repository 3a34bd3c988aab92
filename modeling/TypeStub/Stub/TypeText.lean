import TypeStub.Stub.Session
/-!
# Types

The text of an expression that stands for a type. A type that is written as a string is written
out, except in `Literal`, whose source text is kept, and behind the first argument of `Annotated`.
-/

namespace TypeStub

open TypeStub.Syntax

namespace Source

def quotedTypeText (s : Source) (e : Expr) (points : List Nat) : StubM String :=
  match s.readPoints points with
  | .ok inner => StubM.exprLine inner
  | .error .malformed => StubM.exprLine e
  | .error cause => throw (.read cause)

def plainTexts : List Expr → StubM (List String)
  | [] => return []
  | e :: rest => do
    let t ← StubM.exprLine e
    let ts ← plainTexts rest
    return t :: ts

def spanText (s : Source) (span : Span) : StubM String := do
  let (start, stop) ← StubM.ofSpan (s.offsetsFrom span [])
  let text ← StubM.ofSpan (s.cut start stop)
  return String.ofList text

def appliedText (head : String) (args : List String) : String :=
  head ++ "[" ++ Text.join ", " args ++ "]"

mutual

def typeText (s : Source) : Expr → StubM String
  | .subscript span value (.tuple _ elts) => do
    let head ← StubM.exprLine value
    if head == "Literal" then s.spanText span
    else appliedText head <$> s.argTexts (head == "Annotated") elts
  | .subscript span value index => do
    let head ← StubM.exprLine value
    if head == "Literal" then s.spanText span
    else
      let arg ← s.typeText index
      return appliedText head [arg]
  | .tuple _ elts => do
    let texts ← s.typeTexts elts
    return "(" ++ Text.join ", " texts ++ ")"
  | .list _ elts => do
    let texts ← s.typeTexts elts
    return "[" ++ Text.join ", " texts ++ "]"
  | .binOp _ left .bitOr right => do
    let l ← s.typeText left
    let r ← s.typeText right
    return l ++ " | " ++ r
  | .constant span (.str points marked) =>
    s.quotedTypeText (.constant span (.str points marked)) points
  | e => StubM.exprLine e

def argTexts (s : Source) (onlyFirst : Bool) : List Expr → StubM (List String)
  | [] => return []
  | first :: rest => do
    let t ← s.typeText first
    let ts ← if onlyFirst then plainTexts rest else s.typeTexts rest
    return t :: ts

def typeTexts (s : Source) : List Expr → StubM (List String)
  | [] => return []
  | e :: rest => do
    let t ← s.typeText e
    let ts ← s.typeTexts rest
    return t :: ts

end

end Source

end TypeStub
