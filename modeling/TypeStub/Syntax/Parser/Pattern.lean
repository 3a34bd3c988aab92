import TypeStub.Syntax.Parser.Expression
/-!
# Patterns of `match` statements
-/

namespace TypeStub.Syntax

open Parse

def signedNumber : Parse Expr := do
  let start ← here
  let minus ← acceptOp "-"
  let inner ← here
  match ← peek with
  | .number value =>
    skip
    let e := Expr.constant (← spanFrom inner) value
    if minus then return .unaryOp (← spanFrom start) .minus e else return e
  | _ => failure

def Expr.isImaginary : Expr → Bool
  | .constant _ (.imaginary _) => true
  | .unaryOp _ _ e => e.isImaginary
  | _ => false

/-- A signed number, or a real and an imaginary one joined by a sign. -/
def numberPattern : Parse Expr := do
  let start ← here
  let left ← signedNumber
  let join (op : BinaryOp) : Parse Expr := do
    if left.isImaginary then failure
    skip
    let inner ← here
    match ← peek with
    | .number (.imaginary x) =>
      skip
      let right := Expr.constant (← spanFrom inner) (.imaginary x)
      return .binOp (← spanFrom start) left op right
    | _ => failure
  match ← peek with
  | .op "+" => join .add
  | .op "-" => join .sub
  | _ => return left

def dottedName : Parse Expr := do
  let start ← here
  let id ← name
  let first := Expr.name (← spanFrom start) id .load
  let parts ← many do
    if ← acceptOp "." then
      let attr ← name
      return some (attr, ← spanFrom start)
    else return none
  return parts.foldl (fun e (attr, span) => .attribute span e attr) first

def mayBind : TokenKind → Bool
  | .op text => text != "." && text != "(" && text != "="
  | _ => true

def captureTarget : Parse String := do
  let id ← name
  if id == "_" || !mayBind (← peek) then failure else return id

def literalExpr (r : Rules) : Parse Expr := do
  let start ← here
  match ← peek with
  | .number _ | .op "-" => numberPattern
  | .string _ => stringLiterals r
  | .keyword text =>
    match keywordConstant? text with
    | some c =>
      skip
      return .constant (← spanFrom start) c
    | none => failure
  | _ => failure

def starPattern : Parse Pattern := do
  expectOp "*"
  let id ← name
  if id == "_" then return .star none
  else if mayBind (← peek) then return .star (some id)
  else failure

def sequencePart (pattern : Parse Pattern) : Parse Pattern := do
  if ← atOp "*" then starPattern else pattern

def Pattern.isStar : Pattern → Bool
  | .star _ => true
  | _ => false

def moreParts (pattern : Parse Pattern) (close : TokenKind → Bool) :
    Parse (List Pattern × Bool) := do
  let parts ← many do
    if ← atOp "," then
      if close (← peekSecond) then return none
      skip
      let p ← sequencePart pattern
      return some p
    else return none
  let trailing ← acceptOp ","
  return (parts, trailing || !parts.isEmpty)

def listPattern (r : Rules) : Parse Pattern := do
  expectOp "["
  if ← acceptOp "]" then return .sequence []
  let first ← sequencePart r.pattern
  let (rest, _) ← moreParts r.pattern (· == .op "]")
  expectOp "]"
  return .sequence (first :: rest)

def groupPattern (r : Rules) : Parse Pattern := do
  expectOp "("
  if ← acceptOp ")" then return .sequence []
  let first ← sequencePart r.pattern
  let (rest, isSequence) ← moreParts r.pattern (· == .op ")")
  expectOp ")"
  if isSequence then return .sequence (first :: rest)
  else if first.isStar then failure
  else return first

def mappingEntry (r : Rules) : Parse (Expr × Pattern) := do
  let key ← match ← peek with
    | .name _ => do
      let e ← dottedName
      match e with
      | .attribute .. => pure e
      | _ => failure
    | _ => literalExpr r
  expectOp ":"
  let p ← r.pattern
  return (key, p)

/-- The entries of a mapping pattern up to its closing brace, at most `fuel` of them. -/
def mappingEntries (r : Rules) :
    (fuel : Nat) → List (Expr × Pattern) → Parse Pattern
  | 0, _ => failure
  | fuel + 1, entries => do
    if ← acceptOp "\x7d" then return .mapping entries none
    if ← acceptOp "**" then
      let rest ← captureTarget
      let _ ← acceptOp ","
      expectOp "\x7d"
      return .mapping entries (some rest)
    let entry ← mappingEntry r
    let entries := entries ++ [entry]
    if ← acceptOp "," then mappingEntries r fuel entries
    else
      expectOp "\x7d"
      return .mapping entries none

/-- The arguments of a class pattern up to its closing bracket, at most `fuel` of them; named
ones come last. -/
def classArguments (r : Rules) (cls : Expr) :
    (fuel : Nat) → List Pattern → List (String × Pattern) → Parse Pattern
  | 0, _, _ => failure
  | fuel + 1, patterns, keywords => do
    if ← acceptOp ")" then return .classOf cls patterns keywords
    let continueWith (patterns : List Pattern) (keywords : List (String × Pattern)) := do
      if ← acceptOp "," then classArguments r cls fuel patterns keywords
      else
        expectOp ")"
        return Pattern.classOf cls patterns keywords
    match ← peek, ← peekSecond with
    | .name id, .op "=" =>
      skip
      skip
      let p ← r.pattern
      continueWith patterns (keywords ++ [(id, p)])
    | _, _ =>
      if !keywords.isEmpty then failure
      let p ← r.pattern
      continueWith (patterns ++ [p]) keywords

/-- A pattern that starts with a name: a capture, the wildcard, a value or a class. -/
def namePattern (r : Rules) : Parse Pattern := do
  let e ← dottedName
  match ← peek, e with
  | .op "(", _ =>
    skip
    fun input => classArguments r e (input.tokens.length + 1) [] [] input
  | .op "=", _ => failure
  | _, .attribute .. => return .value e
  | _, .name _ id _ => return .as none (if id == "_" then none else some id)
  | _, _ => failure

def singleton? : Expr → Option Constant
  | .constant _ .none => some .none
  | .constant _ (.bool b) => some (.bool b)
  | _ => none

def closedPattern (r : Rules) : Parse Pattern := do
  match ← peek with
  | .name _ => namePattern r
  | .op "(" => groupPattern r
  | .op "[" => listPattern r
  | .op "\x7b" =>
    skip
    fun input => mappingEntries r (input.tokens.length + 1) [] input
  | _ =>
    let e ← literalExpr r
    match singleton? e with
    | some c => return .singleton c
    | none => return .value e

def pattern (r : Rules) : Parse Pattern := do
  let first ← closedPattern r
  let rest ← many do
    if ← acceptOp "|" then
      let p ← closedPattern r
      return some p
    else return none
  let p := if rest.isEmpty then first else .or (first :: rest)
  if ← acceptKeyword "as" then
    let id ← captureTarget
    return .as (some p) (some id)
  else return p

def casePattern (r : Rules) : Parse Pattern := do
  let first ← sequencePart (pattern r)
  let ends : TokenKind → Bool := fun
    | .op ":" | .keyword "if" => true
    | _ => false
  let (rest, isSequence) ← moreParts r.pattern ends
  if isSequence then return .sequence (first :: rest)
  else if first.isStar then failure
  else return first

end TypeStub.Syntax
