import TypeStub.Syntax.Parser.Literal
import TypeStub.Syntax.Parser.Params
import TypeStub.Syntax.Parser.Target
/-!
# Expressions

The rules for expressions, from the innermost outwards: atoms, what can stand behind an atom, the
operators by rising looseness, and the lists of expressions that statements use.
-/

namespace TypeStub.Syntax

open Parse

/-! ## Small parts -/

/-- `name := value`, or an expression. -/
def namedExpression (r : Rules) : Parse Expr := do
  match ← peek, ← peekSecond with
  | .name id, .op ":=" =>
    let start ← here
    skip
    let nameSpan ← spanFrom start
    skip
    let value ← r.expression
    require r.dialect 8
    return .named (← spanFrom start) (.name nameSpan id .store) value
  | _, _ => r.expression

def starred (start : Place) (operand : Parse Expr) : Parse Expr := do
  let value ← operand
  return .starred (← spanFrom start) value

def starNamedExpression (r : Rules) : Parse Expr := do
  let start ← here
  if ← acceptOp "*" then starred start r.bitOr else namedExpression r

/-- An element of a tuple without brackets: starred, or an expression. -/
def starExpression (r : Rules) (expression : Parse Expr) : Parse Expr := do
  let start ← here
  if ← acceptOp "*" then starred start r.bitOr else expression

def endsList : TokenKind → Bool
  | .op text =>
    [")", "]", "\x7d", ":", ";", "=", ":=", "+=", "-=", "*=", "/=", "%=", "&=", "|=", "^=",
      "<<=", ">>=", "**=", "//=", "@="].contains text
  | .keyword text => ["in", "for", "if", "from", "as", "async"].contains text
  | .newline | .endMarker | .typeComment _ | .dedent | .indent => true
  | _ => false

/-- Further elements behind commas, up to a token that `ends` the list, and whether there was a
comma at all. -/
def elementsUntil (ends : TokenKind → Bool) (element : Parse Expr) :
    Parse (List Expr × Bool) := do
  let elts ← many do
    if ← atOp "," then
      if ends (← peekSecond) then return none
      skip
      let e ← element
      return some e
    else return none
  let trailing ← acceptOp ","
  return (elts, trailing || !elts.isEmpty)

def moreElements (element : Parse Expr) : Parse (List Expr × Bool) :=
  elementsUntil endsList element

def elementOrTuple (element : Parse Expr) : Parse Expr := do
  let start ← here
  let first ← element
  let (rest, isTuple) ← moreElements element
  if isTuple then return .tuple (← spanFrom start) (first :: rest) else return first

def starExpressions (r : Rules) (expression : Parse Expr) : Parse Expr :=
  elementOrTuple (starExpression r expression)

/-- A `yield`, whose keyword is next. -/
def yieldExpression (r : Rules) : Parse Expr := do
  let start ← here
  expectKeyword "yield"
  if ← acceptKeyword "from" then
    let value ← r.expression
    return .yieldFrom (← spanFrom start) value
  else if endsList (← peek) then return .yield (← spanFrom start) none
  else
    let value ← starExpressions r r.expression
    return .yield (← spanFrom start) (some value)

/-- The targets in front of `in`: bound names, attributes, subscripts and nested targets. -/
def bindingTargets (r : Rules) : Parse Expr := do
  let e ← starExpressions r r.bitOr
  match e.toTarget? .bind with
  | some t => return t
  | none => failure

def comprehensionClause (r : Rules) : Parse (Option (Clause Expr)) := do
  let isAsync ← match ← peek, ← peekSecond with
    | .keyword "async", .keyword "for" =>
      skip
      require r.dialect 6
      pure true
    | .keyword "for", _ => pure false
    | _, _ => return none
  expectKeyword "for"
  let target ← bindingTargets r
  expectKeyword "in"
  let iter ← r.disjunction
  let conditions ← many do
    if ← acceptKeyword "if" then
      let e ← r.disjunction
      return some e
    else return none
  return some { target, iter, conditions, isAsync }

def comprehensionClauses (r : Rules) : Parse (List (Clause Expr)) :=
  many (comprehensionClause r)

/-! ## Atoms -/

def Expr.isStarred : Expr → Bool
  | .starred .. => true
  | _ => false

/-- What round brackets hold: nothing, a `yield`, one expression, a tuple, or a generator. -/
def parenthesized (r : Rules) : Parse Expr := do
  let start ← here
  expectOp "("
  if ← acceptOp ")" then return .tuple (← spanFrom start) []
  if ← atKeyword "yield" then
    let e ← yieldExpression r
    expectOp ")"
    return e
  let first ← starNamedExpression r
  if ← atOp "," then
    let (rest, _) ← moreElements (starNamedExpression r)
    expectOp ")"
    return .tuple (← spanFrom start) (first :: rest)
  if first.isStarred then failure
  let clauses ← comprehensionClauses r
  expectOp ")"
  if clauses.isEmpty then return first else return .generator (← spanFrom start) first clauses

/-- What square brackets hold as an atom: a list or a comprehension. -/
def bracketed (r : Rules) : Parse Expr := do
  let start ← here
  expectOp "["
  if ← acceptOp "]" then return .list (← spanFrom start) []
  let first ← starNamedExpression r
  let clauses ← if first.isStarred then pure [] else comprehensionClauses r
  if clauses.isEmpty then
    let (rest, _) ← moreElements (starNamedExpression r)
    expectOp "]"
    return .list (← spanFrom start) (first :: rest)
  else
    expectOp "]"
    return .listComp (← spanFrom start) first clauses

def dictEntry (r : Rules) : Parse (Entry Expr) := do
  if ← acceptOp "**" then
    let value ← r.bitOr
    return { key := none, value }
  else
    let key ← r.expression
    expectOp ":"
    let value ← r.expression
    return { key := some key, value }

def dictRest (r : Rules) (start : Place) (first : Entry Expr) : Parse Expr := do
  let rest ← many do
    if ← atOp "," then
      if endsList (← peekSecond) then return none
      skip
      let e ← dictEntry r
      return some e
    else return none
  let _ ← acceptOp ","
  expectOp "\x7d"
  return .dict (← spanFrom start) (first :: rest)

def setRest (r : Rules) (start : Place) (first : Expr) : Parse Expr := do
  let (rest, _) ← moreElements (starNamedExpression r)
  expectOp "\x7d"
  return .set (← spanFrom start) (first :: rest)

/-- What braces hold: a dictionary, a set, or a comprehension of either. -/
def braced (r : Rules) : Parse Expr := do
  let start ← here
  expectOp "\x7b"
  if ← acceptOp "\x7d" then return .dict (← spanFrom start) []
  if ← atOp "**" then
    let first ← dictEntry r
    dictRest r start first
  else if ← atOp "*" then
    let first ← starNamedExpression r
    setRest r start first
  else
    let isNamed := match ← peek, ← peekSecond with
      | .name _, .op ":=" => true
      | _, _ => false
    let first ← namedExpression r
    match isNamed, ← peek with
    | false, .op ":" =>
      skip
      let value ← r.expression
      let clauses ← comprehensionClauses r
      if clauses.isEmpty then dictRest r start { key := some first, value }
      else
        expectOp "\x7d"
        return .dictComp (← spanFrom start) first value clauses
    | _, _ =>
      let clauses ← comprehensionClauses r
      if clauses.isEmpty then setRest r start first
      else
        expectOp "\x7d"
        return .setComp (← spanFrom start) first clauses

def keywordConstant? : String → Option Constant
  | "None" => some .none
  | "True" => some (.bool true)
  | "False" => some (.bool false)
  | _ => none

def atom (r : Rules) : Parse Expr := do
  let start ← here
  match ← peek with
  | .name id =>
    skip
    return .name (← spanFrom start) id .load
  | .keyword text =>
    match keywordConstant? text with
    | some c =>
      skip
      return .constant (← spanFrom start) c
    | none => failure
  | .number value =>
    skip
    return .constant (← spanFrom start) value
  | .string _ => stringLiterals r
  | .op "..." =>
    skip
    return .constant (← spanFrom start) .ellipsis
  | .op "(" => parenthesized r
  | .op "[" => bracketed r
  | .op "\x7b" => braced r
  | _ => failure

/-! ## Calls, subscripts and attributes -/

/-- The arguments read so far. A keyword ends the positional arguments; behind it only starred
ones may follow, and behind a double star not even those. -/
structure ArgState where
  args : List Expr
  keywords : List (Keyword Expr)
  sawKeyword : Bool
  sawDoubleStar : Bool

def argument (r : Rules) (s : ArgState) : Parse ArgState := do
  let start ← here
  match ← peek, ← peekSecond with
  | .op "*", _ =>
    if s.sawDoubleStar then failure
    skip
    let e ← starred start r.expression
    return { s with args := s.args ++ [e] }
  | .op "**", _ =>
    skip
    let value ← r.expression
    return { s with keywords := s.keywords ++ [{ name := none, value }], sawDoubleStar := true }
  | .name id, .op "=" =>
    skip
    skip
    let value ← r.expression
    return { s with keywords := s.keywords ++ [{ name := some id, value }], sawKeyword := true }
  | _, _ =>
    if s.sawKeyword || s.sawDoubleStar then failure
    let e ← namedExpression r
    return { s with args := s.args ++ [e] }

/-- Further arguments behind commas, at most `fuel` of them. -/
def moreArguments (r : Rules) : (fuel : Nat) → ArgState → Parse ArgState
  | 0, _ => failure
  | fuel + 1, s => do
    if ← acceptOp "," then
      if ← atOp ")" then return s
      let s ← argument r s
      moreArguments r fuel s
    else return s

/-- The arguments of a call or a class up to the closing bracket, which is taken. In a call, the
one argument may be a generator without brackets of its own. -/
def arguments (r : Rules) (start : Place) (generator : Bool) :
    Parse (List Expr × List (Keyword Expr)) := do
  if ← acceptOp ")" then return ([], [])
  let s ← argument r { args := [], keywords := [], sawKeyword := false, sawDoubleStar := false }
  let clauses ← match generator, s.args, s.keywords with
    | true, [.starred ..], _ => pure []
    | true, [_], [] => comprehensionClauses r
    | _, _, _ => pure []
  match clauses, s.args with
  | _ :: _, [elt] =>
    expectOp ")"
    return ([.generator (← spanFrom start) elt clauses], [])
  | _, _ =>
    let s ← fun input => moreArguments r (input.tokens.length + 1) s input
    expectOp ")"
    return (s.args, s.keywords)

def sliceBound (r : Rules) : Parse (Option Expr) := do
  match ← peek with
  | .op ":" | .op "," | .op "]" => return none
  | _ => some <$> r.expression

def sliceRest (r : Rules) (start : Place) (lower : Option Expr) : Parse Expr := do
  expectOp ":"
  let upper ← sliceBound r
  let step ← if ← acceptOp ":" then sliceBound r else pure none
  return .slice (← spanFrom start) lower upper step

def sliceElement (r : Rules) : Parse Expr := do
  let start ← here
  match ← peek, ← peekSecond with
  | .op ":", _ => sliceRest r start none
  | .op "*", _ =>
    skip
    starred start r.expression
  | .name _, .op ":=" => namedExpression r
  | _, _ =>
    let e ← r.expression
    if ← atOp ":" then sliceRest r start (some e) else return e

/-- What a subscript holds. A single starred element is a tuple all the same. -/
def subscriptIndex (r : Rules) : Parse Expr := do
  let start ← here
  let first ← sliceElement r
  let (rest, isTuple) ← elementsUntil (· == .op "]") (sliceElement r)
  if isTuple || first.isStarred then return .tuple (← spanFrom start) (first :: rest)
  else return first

/-- Attributes, calls and subscripts behind an atom, at most `fuel` of them. -/
def trailers (r : Rules) (start : Place) : (fuel : Nat) → Expr → Parse Expr
  | 0, _ => failure
  | fuel + 1, e => do
    match ← peek with
    | .op "." =>
      skip
      let attr ← name
      let e := Expr.attribute (← spanFrom start) e attr
      trailers r start fuel e
    | .op "(" =>
      let bracket ← here
      skip
      let (args, keywords) ← arguments r bracket true
      let e := Expr.call (← spanFrom start) e args keywords
      trailers r start fuel e
    | .op "[" =>
      skip
      let index ← subscriptIndex r
      expectOp "]"
      let e := Expr.subscript (← spanFrom start) e index
      trailers r start fuel e
    | _ => return e

def primary (r : Rules) : Parse Expr := do
  let start ← here
  let e ← atom r
  fun input => trailers r start (input.tokens.length + 1) e input

def awaitable (r : Rules) : Parse Expr := do
  let start ← here
  if ← acceptKeyword "await" then
    require r.dialect 5
    let value ← primary r
    return .await (← spanFrom start) value
  else primary r

/-! ## Operators -/

def power (r : Rules) : Parse Expr := do
  let start ← here
  let base ← awaitable r
  if ← acceptOp "**" then
    let exponent ← r.factor
    return .binOp (← spanFrom start) base .pow exponent
  else return base

def signOp? : TokenKind → Option UnaryOp
  | .op "+" => some .plus
  | .op "-" => some .minus
  | .op "~" => some .invert
  | _ => none

def factor (r : Rules) : Parse Expr := do
  let start ← here
  match signOp? (← peek) with
  | some op =>
    skip
    let operand ← r.factor
    return .unaryOp (← spanFrom start) op operand
  | none => power r

/-- Operands joined by operators of one level, grouped to the left, at most `fuel` of them. -/
def leftAssocFrom (d : Dialect) (operand : Parse Expr) (ops : List (String × BinaryOp))
    (start : Place) : (fuel : Nat) → Expr → Parse Expr
  | 0, _ => failure
  | fuel + 1, left => do
    match ← peek with
    | .op text =>
      match ops.lookup text with
      | some op =>
        skip
        if op == .matMult then require d 5
        let right ← operand
        let e := Expr.binOp (← spanFrom start) left op right
        leftAssocFrom d operand ops start fuel e
      | none => return left
    | _ => return left

def leftAssoc (d : Dialect) (operand : Parse Expr) (ops : List (String × BinaryOp)) :
    Parse Expr := do
  let start ← here
  let first ← operand
  fun input => leftAssocFrom d operand ops start (input.tokens.length + 1) first input

def term (r : Rules) : Parse Expr :=
  leftAssoc r.dialect (factor r)
    [("*", .mult), ("/", .div), ("//", .floorDiv), ("%", .mod), ("@", .matMult)]

def arith (r : Rules) : Parse Expr :=
  leftAssoc r.dialect (term r) [("+", .add), ("-", .sub)]

def shift (r : Rules) : Parse Expr :=
  leftAssoc r.dialect (arith r) [("<<", .lShift), (">>", .rShift)]

def bitAnd (r : Rules) : Parse Expr :=
  leftAssoc r.dialect (shift r) [("&", .bitAnd)]

def bitXor (r : Rules) : Parse Expr :=
  leftAssoc r.dialect (bitAnd r) [("^", .bitXor)]

def bitOr (r : Rules) : Parse Expr :=
  leftAssoc r.dialect (bitXor r) [("|", .bitOr)]

def compareOp : Parse (Option CompareOp) := do
  let one (op : CompareOp) : Parse (Option CompareOp) := do
    skip
    return some op
  match ← peek with
  | .op "==" => one .eq
  | .op "!=" => one .notEq
  | .op "<" => one .lt
  | .op "<=" => one .ltE
  | .op ">" => one .gt
  | .op ">=" => one .gtE
  | .keyword "in" => one .isIn
  | .keyword "not" =>
    match ← peekSecond with
    | .keyword "in" =>
      skip
      one .notIn
    | _ => return none
  | .keyword "is" =>
    skip
    if ← acceptKeyword "not" then return some .isNot else return some .is
  | _ => return none

def comparison (r : Rules) : Parse Expr := do
  let start ← here
  let left ← bitOr r
  let rest ← many do
    match ← compareOp with
    | some op =>
      let right ← bitOr r
      return some { op, right : Comparison Expr }
    | none => return none
  if rest.isEmpty then return left else return .compare (← spanFrom start) left rest

def inversion (r : Rules) : Parse Expr := do
  let start ← here
  if ← acceptKeyword "not" then
    let operand ← r.inversion
    return .unaryOp (← spanFrom start) .not operand
  else comparison r

/-- Operands joined by one of the words `and` and `or`. -/
def boolChain (word : String) (op : BoolOp) (operand : Parse Expr) : Parse Expr := do
  let start ← here
  let first ← operand
  let rest ← many do
    if ← acceptKeyword word then
      let e ← operand
      return some e
    else return none
  if rest.isEmpty then return first else return .boolOp (← spanFrom start) op (first :: rest)

def conjunction (r : Rules) : Parse Expr :=
  boolChain "and" .and (inversion r)

def disjunction (r : Rules) : Parse Expr :=
  boolChain "or" .or (conjunction r)

def lambda (r : Rules) : Parse Expr := do
  let start ← here
  expectKeyword "lambda"
  let ps ← params r .lambda
  if !ps.posOnly.isEmpty then require r.dialect 8
  expectOp ":"
  let body ← r.expression
  return .lambda (← spanFrom start) ps body

def expression (r : Rules) : Parse Expr := do
  if ← atKeyword "lambda" then lambda r
  else
    let start ← here
    let body ← disjunction r
    if ← acceptKeyword "if" then
      let test ← r.disjunction
      expectKeyword "else"
      let orelse ← r.expression
      return .ifExp (← spanFrom start) test body orelse
    else return body

end TypeStub.Syntax
