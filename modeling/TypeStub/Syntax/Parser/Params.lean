import TypeStub.Syntax.Parser.Core
/-!
# Parameter lists

The parameters of functions and lambdas. Parameters are read one by one into a `ParamState`, which
says what may still follow.
-/

namespace TypeStub.Syntax

open Parse

/-- The parameters read so far. `positional` are those that can be given by position, with their
defaults; `slash` is how many of them stand before a slash. -/
structure ParamState where
  positional : List (Param Expr × Option Expr)
  slash : Option Nat
  star : Bool
  vararg : Option (Param Expr)
  kwOnly : List (Param Expr × Option Expr)
  kwarg : Option (Param Expr)

def ParamState.empty : ParamState :=
  { positional := [], slash := none, star := false, vararg := none, kwOnly := [], kwarg := none }

/-- Whether one more positional parameter may follow: once one has a default, all have. -/
def ParamState.admits (s : ParamState) (value : Option Expr) : Bool :=
  value.isSome || !(s.positional.any (·.2.isSome))

/-- A star without a name has to be followed by a parameter. -/
def ParamState.isComplete (s : ParamState) : Bool :=
  !s.star || s.vararg.isSome || !s.kwOnly.isEmpty

def ParamState.toParams (s : ParamState) : Params Expr :=
  let (before, after) := s.positional.splitAt (s.slash.getD 0)
  { posOnly := before.map (·.1)
    args := after.map (·.1)
    vararg := s.vararg
    kwOnly := s.kwOnly.map (·.1)
    kwDefaults := s.kwOnly.map (·.2)
    kwarg := s.kwarg
    defaults := s.positional.filterMap (·.2) }

/-- Where a parameter list stands: functions end it with a bracket and have annotations and type
comments, lambdas end it with a colon. -/
inductive ParamStyle where
  | function
  | lambda
  deriving DecidableEq

def ParamStyle.close : ParamStyle → String
  | .function => ")"
  | .lambda => ":"

/-- The annotation of a parameter; only that of `*args` may be starred. -/
def paramAnnot (r : Rules) (style : ParamStyle) (starAllowed : Bool) : Parse (Option Expr) := do
  match style, ← peek with
  | .function, .op ":" =>
    skip
    let start ← here
    match starAllowed, ← peek with
    | true, .op "*" =>
      skip
      let value ← r.bitOr
      return some (.starred (← spanFrom start) value)
    | _, _ => some <$> r.expression
  | _, _ => return none

/-- The comma behind a parameter, or the end of the list in front; a type comment may follow the
comma or stand before the end. The result is the comment, and whether the list goes on. -/
def paramEnd (style : ParamStyle) : Parse (Option String × Bool) := do
  let comment : Parse (Option String) := do
    match style, ← peek with
    | .function, .typeComment text =>
      skip
      return some text
    | _, _ => return none
  if ← acceptOp "," then
    let c ← comment
    return (c, true)
  else
    let c ← comment
    if ← atOp style.close then return (c, false) else failure

def markEnd (style : ParamStyle) : Parse Bool := do
  if ← acceptOp "," then return true
  else if ← atOp style.close then return false
  else failure

/-- One parameter or mark. The result tells whether more may follow. -/
def paramItem (r : Rules) (style : ParamStyle) (s : ParamState) : Parse (ParamState × Bool) := do
  match ← peek with
  | .op "/" =>
    if s.star || s.slash.isSome || s.positional.isEmpty then failure
    skip
    let more ← markEnd style
    return ({ s with slash := some s.positional.length }, more)
  | .op "*" =>
    if s.star then failure
    skip
    if ← acceptOp "," then return ({ s with star := true }, true)
    let id ← name
    let annot ← paramAnnot r style true
    let (comment, more) ← paramEnd style
    let param : Param Expr := { name := id, annot, typeComment := comment }
    return ({ s with star := true, vararg := some param }, more)
  | .op "**" =>
    skip
    let id ← name
    let annot ← paramAnnot r style false
    let (comment, _) ← paramEnd style
    let param : Param Expr := { name := id, annot, typeComment := comment }
    return ({ s with kwarg := some param }, false)
  | .name id =>
    skip
    let annot ← paramAnnot r style false
    let value ← if ← acceptOp "=" then some <$> r.expression else pure none
    let (comment, more) ← paramEnd style
    let param : Param Expr := { name := id, annot, typeComment := comment }
    if s.star then return ({ s with kwOnly := s.kwOnly ++ [(param, value)] }, more)
    else if s.admits value then
      return ({ s with positional := s.positional ++ [(param, value)] }, more)
    else failure
  | _ => failure

/-- Parameters up to the end of the list, at most `fuel` of them. -/
def paramItems (r : Rules) (style : ParamStyle) : (fuel : Nat) → ParamState → Parse ParamState
  | 0, _ => failure
  | fuel + 1, s => do
    if ← atOp style.close then return s
    let (s, more) ← paramItem r style s
    if more then paramItems r style fuel s else return s

def params (r : Rules) (style : ParamStyle) : Parse (Params Expr) := do
  let s ← fun input => paramItems r style (input.tokens.length + 1) .empty input
  if ← atOp style.close then
    if s.isComplete then return s.toParams else failure
  else failure

end TypeStub.Syntax
