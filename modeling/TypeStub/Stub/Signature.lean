import TypeStub.Stub.TypeText
/-!
# Signatures

The parameters of a function as they stand in a stub: names, types, and a mark for each default
value.
-/

namespace TypeStub

open TypeStub.Syntax

/-- How the default value of a parameter is written. -/
inductive DefaultStyle
  /-- The value itself. -/
  | kept
  /-- A mark in place of the value. -/
  | elided
  deriving DecidableEq, Repr

namespace Source

def defaultText (style : DefaultStyle) : Option Expr → StubM String
  | none => return ""
  | some value =>
    match style with
    | .elided => return " = ..."
    | .kept => do
      let text ← StubM.exprLine value
      return " = " ++ text

def annotText (s : Source) : Option Expr → StubM String
  | none => return ""
  | some annot => do
    let text ← s.typeText annot
    return ": " ++ text

def sayTypeComment (comment : Option String) (what : String) : StubM Unit :=
  match comment with
  | none => pure ()
  | some text => if text.isEmpty then pure () else StubM.sayUnexpected ("Type comment on " ++ what)

def paramText (s : Source) (style : DefaultStyle) (p : Param Expr) (default : Option Expr) :
    StubM String := do
  sayTypeComment p.typeComment "function arg"
  let annot ← s.annotText p.annot
  let value ← defaultText style default
  return p.name ++ annot ++ value

def paramTexts (s : Source) (style : DefaultStyle) :
    List (Param Expr × Option Expr) → StubM (List String)
  | [] => return []
  | (p, default) :: rest => do
    let t ← s.paramText style p default
    let ts ← s.paramTexts style rest
    return t :: ts

/-- The text of the parameter that a sign in front marks as taking all further arguments. -/
def variadicText (s : Source) (sign : String) : Option (Param Expr) → StubM (List String)
  | none => return []
  | some p => do
    let t ← s.paramText .elided p none
    return [sign ++ t]

def signaturePieces (s : Source) (ps : Params Expr) : StubM (List String) := do
  let aligned := alignDefaults (ps.posOnly.length + ps.args.length) ps.defaults
  let posOnly ← s.paramTexts .elided (ps.posOnly.zip aligned)
  let args ← s.paramTexts .elided (ps.args.zip (aligned.drop ps.posOnly.length))
  let vararg ← s.variadicText "*" ps.vararg
  let kwOnly ← s.paramTexts .elided (ps.kwOnly.zip ps.kwDefaults)
  let kwarg ← s.variadicText "**" ps.kwarg
  let slash := if ps.posOnly.isEmpty then [] else ["/"]
  let star := if ps.vararg.isNone && !ps.kwOnly.isEmpty then ["*"] else []
  return posOnly ++ slash ++ args ++ vararg ++ star ++ kwOnly ++ kwarg

def signatureText (s : Source) (ps : Params Expr) : StubM String := do
  let pieces ← s.signaturePieces ps
  return Text.join ", " pieces

end Source

end TypeStub
