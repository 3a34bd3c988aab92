import TypeStub.Filter.Check
import TypeStub.Filter.Condition
import TypeStub.Source
/-!
# Filters

A filter is a condition together with the text it was written as. It is written as a truth value
or as an expression.
-/

namespace TypeStub

open TypeStub.Syntax TypeStub.Regex

/-- What a filter is written as. -/
inductive FilterText
  | flag (value : Bool)
  | expr (text : String)
  deriving DecidableEq, Repr, Inhabited

def FilterText.plain : FilterText → String
  | .flag true => "True"
  | .flag false => "False"
  | .expr text => text

/-- A condition that was read from a text. -/
structure Filter where
  raw : FilterText
  expr : Expr
  condition : Filter.Condition

/-- Why a text is no filter. -/
inductive FilterError
  | read (cause : ReadError)
  | print (cause : PrintError)
  /-- The expression denotes no condition. -/
  | unsupported (text : String) (reasons : List String)
  deriving DecidableEq, Repr

namespace Filter

def read (raw : FilterText) : Except FilterError Filter := do
  let source : Source := { text := [], path := "", version := none, typeComments := false }
  let text := "(" ++ raw.plain ++ ")"
  match source.readExpr text.toList with
  | .error cause => throw (.read cause)
  | .ok expr =>
    match Condition.ofExpr? expr with
    | some condition => return { raw, expr, condition }
    | none =>
      match expr.render with
      | .ok shown => throw (.unsupported shown (Check.reasons expr))
      | .error cause => throw (.print cause)

def isMatch (f : Filter) (ctx : Context) : Except RegexError Bool :=
  f.condition.eval ctx

def shown (f : Filter) : Except PrintError String :=
  f.expr.render

/-- What a filter is called where values are shown. -/
def described (f : Filter) : Except PrintError String := do
  let text ← f.shown
  return "Pattern(" ++ Text.quote text ++ ")"

/-- A filter is no truth value: it has one in a context only. -/
inductive TruthError
  | noContext
  deriving DecidableEq, Repr

def truth (_ : Filter) : Except TruthError Bool :=
  .error .noContext

end Filter

def FilterError.message? : FilterError → Option String
  | .unsupported text reasons =>
    some ("Pattern is not allowed to contain Python AST element: `" ++ text ++ "` ("
      ++ Text.join ", " reasons ++ ")")
  | _ => none

end TypeStub
