import TypeStub.Syntax.Parser.Pattern
/-!
# Statements
-/

namespace TypeStub.Syntax

open Parse

/-! ## Simple statements -/

def augmentedOp? : TokenKind → Option BinaryOp
  | .op "+=" => some .add
  | .op "-=" => some .sub
  | .op "*=" => some .mult
  | .op "@=" => some .matMult
  | .op "/=" => some .div
  | .op "%=" => some .mod
  | .op "&=" => some .bitAnd
  | .op "|=" => some .bitOr
  | .op "^=" => some .bitXor
  | .op "<<=" => some .lShift
  | .op ">>=" => some .rShift
  | .op "**=" => some .pow
  | .op "//=" => some .floorDiv
  | _ => none

/-- What can be assigned: a `yield`, or an expression or tuple. -/
def assignedValue (r : Rules) : Parse Expr := do
  if ← atKeyword "yield" then yieldExpression r else starExpressions r r.expression

def typeComment : Parse (Option String) := do
  match ← peek with
  | .typeComment text =>
    skip
    return some text
  | _ => return none

/-- The rest of an assignment behind its first target and an equals sign: the further targets and
the value, at most `fuel` of them. -/
def assignmentRest (r : Rules) : (fuel : Nat) → List Expr → Parse (List Expr × Expr)
  | 0, _ => failure
  | fuel + 1, targets => do
    let e ← assignedValue r
    if ← acceptOp "=" then
      match e.toTarget? .bind with
      | some t => assignmentRest r fuel (targets ++ [t])
      | none => failure
    else return (targets, e)

def expressionStatement (r : Rules) : Parse Stmt := do
  let start ← here
  let bracketed ← atOp "("
  let e ← starExpressions r (expression r)
  match ← peek with
  | .op "=" =>
    match e.toTarget? .bind with
    | none => failure
    | some t =>
      skip
      let (targets, value) ← fun input =>
        assignmentRest r (input.tokens.length + 1) [t] input
      let comment ← typeComment
      return .assign (← spanFrom start) targets value comment
  | .op ":" =>
    match e.toSingleTarget? with
    | none => failure
    | some t =>
      skip
      let annot ← r.expression
      let value ← if ← acceptOp "=" then some <$> assignedValue r else pure none
      require r.dialect 6
      let simple := match t with
        | .name .. => !bracketed
        | _ => false
      return .annAssign (← spanFrom start) t annot value simple
  | kind =>
    match augmentedOp? kind with
    | some op =>
      match e.toSingleTarget? with
      | none => failure
      | some t =>
        skip
        if op == .matMult then require r.dialect 5
        let value ← assignedValue r
        return .augAssign (← spanFrom start) t op value
    | none => return .expr (← spanFrom start) e

def moduleName : Parse String := do
  let first ← name
  let rest ← many do
    if ← acceptOp "." then
      let part ← name
      return some part
    else return none
  return rest.foldl (fun whole part => whole ++ "." ++ part) first

def asName : Parse (Option String) := do
  if ← acceptKeyword "as" then some <$> name else return none

def commaSeparated {α : Type} (item : Parse α) : Parse (List α) := do
  let first ← item
  let rest ← many do
    if ← acceptOp "," then
      let a ← item
      return some a
    else return none
  return first :: rest

def importStatement (start : Place) : Parse Stmt := do
  expectKeyword "import"
  let names ← commaSeparated do
    let module ← moduleName
    let bound ← asName
    return { name := module, asName := bound : Alias }
  return .imports (← spanFrom start) names

def relativeLevel : Parse Nat := do
  let dots ← many do
    if ← acceptOp "." then return some 1
    else if ← acceptOp "..." then return some 3
    else return none
  return dots.foldr (· + ·) 0

def importedName : Parse Alias := do
  let id ← name
  let bound ← asName
  return { name := id, asName := bound }

def bracketedNames : Parse (List Alias) := do
  expectOp "("
  let first ← importedName
  let rest ← many do
    if ← atOp "," then
      if (← peekSecond) == .op ")" then return none
      skip
      let a ← importedName
      return some a
    else return none
  let _ ← acceptOp ","
  expectOp ")"
  return first :: rest

def importFromStatement (start : Place) : Parse Stmt := do
  expectKeyword "from"
  let level ← relativeLevel
  let module ← if ← atKeyword "import" then
      if level == 0 then failure else pure none
    else some <$> moduleName
  expectKeyword "import"
  let names ←
    if ← acceptOp "*" then pure [{ name := "*", asName := none : Alias }]
    else if ← atOp "(" then bracketedNames
    else commaSeparated importedName
  return .importFrom (← spanFrom start) module names level

def raiseStatement (r : Rules) (start : Place) : Parse Stmt := do
  expectKeyword "raise"
  match ← peek with
  | .newline | .op ";" => return .raise (← spanFrom start) none none
  | _ =>
    let exc ← r.expression
    let cause ← if ← acceptKeyword "from" then some <$> r.expression else pure none
    return .raise (← spanFrom start) (some exc) cause

def returnStatement (r : Rules) (start : Place) : Parse Stmt := do
  expectKeyword "return"
  if endsList (← peek) then return .ret (← spanFrom start) none
  else
    let value ← starExpressions r r.expression
    return .ret (← spanFrom start) (some value)

def deleteStatement (r : Rules) (start : Place) : Parse Stmt := do
  expectKeyword "del"
  let first ← r.bitOr
  let (rest, _) ← moreElements r.bitOr
  match toTargets? .delete (first :: rest) with
  | some targets => return .delete (← spanFrom start) targets
  | none => failure

def assertStatement (r : Rules) (start : Place) : Parse Stmt := do
  expectKeyword "assert"
  let test ← r.expression
  let msg ← if ← acceptOp "," then some <$> r.expression else pure none
  return .assert (← spanFrom start) test msg

def simpleStatement (r : Rules) : Parse Stmt := do
  let start ← here
  match ← peek with
  | .keyword "return" => returnStatement r start
  | .keyword "import" => importStatement start
  | .keyword "from" => importFromStatement start
  | .keyword "raise" => raiseStatement r start
  | .keyword "del" => deleteStatement r start
  | .keyword "assert" => assertStatement r start
  | .keyword "yield" =>
    let e ← yieldExpression r
    return .expr (← spanFrom start) e
  | .keyword "pass" =>
    skip
    return .pass (← spanFrom start)
  | .keyword "break" =>
    skip
    return .break (← spanFrom start)
  | .keyword "continue" =>
    skip
    return .continue (← spanFrom start)
  | .keyword "global" =>
    skip
    let names ← commaSeparated name
    return .global (← spanFrom start) names
  | .keyword "nonlocal" =>
    skip
    let names ← commaSeparated name
    return .nonlocal (← spanFrom start) names
  | _ => expressionStatement r

def simpleStatements (r : Rules) : Parse (List Stmt) := do
  let first ← simpleStatement r
  let rest ← many do
    if ← atOp ";" then
      if (← peekSecond) == .newline then return none
      skip
      let s ← simpleStatement r
      return some s
    else return none
  let _ ← acceptOp ";"
  expect .newline
  return first :: rest

/-! ## Compound statements -/

def colonBlock (r : Rules) : Parse (List Stmt) := do
  expectOp ":"
  r.block

def optionalBlock (r : Rules) (word : String) : Parse (List Stmt) := do
  if ← acceptKeyword word then colonBlock r else return []

def functionTypeComment : Parse (Option String) := fun s =>
  match s.tokens with
  | { kind := .newline, .. } :: { kind := .typeComment text, .. } ::
      { kind := .newline, .. } :: { kind := .indent, .. } :: _ =>
    some (some text, { s with tokens := s.tokens.drop 2 })
  | _ => typeComment s

def functionDefinition (r : Rules) (decorators : List Expr) : Parse Stmt := do
  let start ← here
  let isAsync ← acceptKeyword "async"
  expectKeyword "def"
  let id ← name
  expectOp "("
  let ps ← params r .function
  if !ps.posOnly.isEmpty then require r.dialect 8
  expectOp ")"
  let returns ← if ← acceptOp "->" then some <$> r.expression else pure none
  expectOp ":"
  let comment ← functionTypeComment
  let body ← r.block
  if isAsync then require r.dialect 5
  let head : FunctionHead :=
    { name := id, params := ps, decorators, returns, typeComment := comment, isAsync }
  return .functionDef (← spanFrom start) head body

def classDefinition (r : Rules) (decorators : List Expr) : Parse Stmt := do
  let start ← here
  expectKeyword "class"
  let id ← name
  let (bases, keywords) ←
    if ← acceptOp "(" then arguments r start false else pure ([], [])
  let body ← colonBlock r
  return .classDef (← spanFrom start) { name := id, bases, keywords, decorators } body

def decorated (r : Rules) : Parse Stmt := do
  let decorators ← many do
    if ← acceptOp "@" then
      let e ← namedExpression r
      expect .newline
      return some e
    else return none
  match ← peek with
  | .keyword "class" => classDefinition r decorators
  | .keyword "def" | .keyword "async" => functionDefinition r decorators
  | _ => failure

/-- Puts the branches behind the first one into the `else` part, from the last one inwards. -/
def nestBranches (last : List Stmt) : List (Span × Expr × List Stmt) → List Stmt
  | [] => last
  | (span, test, body) :: rest => [.ifElse span test body (nestBranches last rest)]

def ifStatement (r : Rules) : Parse Stmt := do
  let start ← here
  expectKeyword "if"
  let test ← namedExpression r
  let body ← colonBlock r
  let branches ← many do
    let place ← here
    if ← acceptKeyword "elif" then
      let test ← namedExpression r
      let body ← colonBlock r
      return some (place, test, body)
    else return none
  let last ← optionalBlock r "else"
  let span ← spanFrom start
  let placed := branches.map fun (place, test, body) =>
    ({ span with line := place.line, col := place.col }, test, body)
  return .ifElse span test body (nestBranches last placed)

def whileStatement (r : Rules) : Parse Stmt := do
  let start ← here
  expectKeyword "while"
  let test ← namedExpression r
  let body ← colonBlock r
  let orelse ← optionalBlock r "else"
  return .whileLoop (← spanFrom start) test body orelse

def forStatement (r : Rules) : Parse Stmt := do
  let start ← here
  let isAsync ← acceptKeyword "async"
  expectKeyword "for"
  let target ← bindingTargets r
  expectKeyword "in"
  let iter ← starExpressions r r.expression
  expectOp ":"
  let comment ← typeComment
  let body ← r.block
  let orelse ← optionalBlock r "else"
  if isAsync then require r.dialect 5
  return .forLoop (← spanFrom start) isAsync target iter body orelse comment

def withItem (r : Rules) : Parse WithItem := do
  let context ← r.expression
  if ← acceptKeyword "as" then
    let start ← here
    let e ← if ← acceptOp "*" then starred start r.bitOr else r.bitOr
    match e.toTarget? .bind with
    | some t => return { context, target := some t }
    | none => failure
  else return { context, target := none }

def bracketedItems (r : Rules) : Parse (List WithItem) := do
  expectOp "("
  let first ← withItem r
  let rest ← many do
    if ← atOp "," then
      if (← peekSecond) == .op ")" then return none
      skip
      let item ← withItem r
      return some item
    else return none
  let _ ← acceptOp ","
  expectOp ")"
  expectOp ":"
  return first :: rest

def withStatement (r : Rules) : Parse Stmt := do
  let start ← here
  let isAsync ← acceptKeyword "async"
  expectKeyword "with"
  let inBrackets ← if ← atOp "(" then attempt (bracketedItems r) else pure none
  let (items, comment) ← match inBrackets with
    | some items => do
      if !isAsync then require r.dialect 9
      pure (items, none)
    | none => do
      let items ← commaSeparated (withItem r)
      expectOp ":"
      let comment ← typeComment
      pure (items, comment)
  let body ← r.block
  if isAsync then require r.dialect 5
  return .withBlock (← spanFrom start) isAsync items body comment

/-- A handler of a `try` statement, if one follows; the flag tells whether it is a starred one. -/
def exceptHandler (r : Rules) : Parse (Option (Bool × Handler Stmt)) := do
  if ← acceptKeyword "except" then
    let isStar ← acceptOp "*"
    if ← atOp ":" then
      if isStar then failure
      let body ← colonBlock r
      return some (false, { kind := none, name := none, body })
    else
      let kind ← r.expression
      let bound ← asName
      let body ← colonBlock r
      return some (isStar, { kind := some kind, name := bound, body })
  else return none

def tryStatement (r : Rules) : Parse Stmt := do
  let start ← here
  expectKeyword "try"
  let body ← colonBlock r
  let handlers ← many (exceptHandler r)
  let isStar := handlers.any (·.1)
  if isStar && handlers.any (!·.1) then failure
  let orelse ← if handlers.isEmpty then pure [] else optionalBlock r "else"
  let finalbody ← optionalBlock r "finally"
  if handlers.isEmpty && finalbody.isEmpty then failure
  if isStar then require r.dialect 11
  return .tryBlock (← spanFrom start) isStar body (handlers.map (·.2)) orelse finalbody

/-- A case of a `match` statement, if one follows. -/
def caseBlock (r : Rules) : Parse (Option (Case Stmt)) := do
  match ← peek with
  | .name "case" =>
    skip
    let pattern ← casePattern r
    let guard ← if ← acceptKeyword "if" then some <$> namedExpression r else pure none
    let body ← colonBlock r
    return some { pattern, guard, body }
  | _ => return none

/-- The head of a `match` statement up to its first case. -/
def matchHead (r : Rules) : Parse Expr := do
  let _ ← name
  let subject ← do
    let start ← here
    let first ← starNamedExpression r
    if ← atOp "," then
      let (rest, _) ← moreElements (starNamedExpression r)
      pure (Expr.tuple (← spanFrom start) (first :: rest))
    else if first.isStarred then failure
    else pure first
  expectOp ":"
  expect .newline
  expect .indent
  return subject

/-- A `match` statement, if one starts here; the word is a name everywhere else. -/
def matchStatement (r : Rules) : Parse (Option Stmt) := do
  let start ← here
  match ← attempt (matchHead r) with
  | none => return none
  | some subject =>
    let cases ← many (caseBlock r)
    if cases.isEmpty then failure
    expect .dedent
    require r.dialect 10
    return some (.matchCases (← spanFrom start) subject cases)

def statement (r : Rules) : Parse (List Stmt) := do
  match ← peek, ← peekSecond with
  | .op "@", _ => return [← decorated r]
  | .keyword "def", _ => return [← functionDefinition r []]
  | .keyword "async", .keyword "def" => return [← functionDefinition r []]
  | .keyword "async", .keyword "for" => return [← forStatement r]
  | .keyword "async", .keyword "with" => return [← withStatement r]
  | .keyword "class", _ => return [← classDefinition r []]
  | .keyword "if", _ => return [← ifStatement r]
  | .keyword "while", _ => return [← whileStatement r]
  | .keyword "for", _ => return [← forStatement r]
  | .keyword "with", _ => return [← withStatement r]
  | .keyword "try", _ => return [← tryStatement r]
  | .name "match", _ =>
    match ← matchStatement r with
    | some s => return [s]
    | none => simpleStatements r
  | _, _ => simpleStatements r

def statements (r : Rules) : Parse (List Stmt) := do
  let groups ← many do
    match ← peek with
    | .dedent | .endMarker => return none
    | _ => some <$> statement r
  return groups.flatten

def block (r : Rules) : Parse (List Stmt) := do
  if ← accept .newline then
    expect .indent
    let body ← statements r
    if body.isEmpty then failure
    expect .dedent
    return body
  else simpleStatements r

end TypeStub.Syntax
