import TypeStub.Syntax.Lexer
import TypeStub.Syntax.Parser.Statement
/-!
# Reading modules and expressions

The rules of the grammar are tied together here. Every recursive call of a rule happens behind at
least one token, and every token takes at least one character, so the length of the text bounds
the depth.
-/

namespace TypeStub.Syntax

/-- The tokens of a text in a dialect, and how many comments ask to ignore a line. A text must not
hold the null character. -/
def tokenize (d : Dialect) (origin : Place) (closeLine : Bool) (text : List Char) :
    Option (List Token × Nat) := do
  if text.contains '\x00' then none
  let options : LexOptions :=
    { typeComments := d.typeComments
      digitGroups := d.minor ≥ 6
      line := origin.line
      col := origin.col }
  let tokens ← lex options (unifyLines closeLine text)
  let plain := tokens.filter (·.kind != .typeIgnore)
  let settled :=
    if d.minor < 7 then demoteAsync { blocks := 0, brackets := 0, inside := none } plain
    else plain
  some (settled, tokens.length - plain.length)

def Input.start (tokens : List Token) : Input :=
  { tokens, endLine := 1, endCol := 0 }

/-- Reads the expression in the braces of a formatted string as if it stood in brackets. -/
def embeddedExpression (r : Rules) (text : List Char) (origin : Place) : Option Expr := do
  let (tokens, _) ← tokenize r.dialect origin true ('(' :: text ++ [')'])
  let (e, _) ← starExpressions r (expression r) (Input.start tokens)
  return e

/-- The rules to the depth `depth`; below it every rule fails. -/
def rules (d : Dialect) : (depth : Nat) → Rules
  | 0 =>
    { dialect := d
      expression := failure
      disjunction := failure
      inversion := failure
      bitOr := failure
      factor := failure
      embedded := fun _ _ => none
      pattern := failure
      block := failure }
  | depth + 1 =>
    let r := rules d depth
    { dialect := d
      expression := expression r
      disjunction := disjunction r
      inversion := inversion r
      bitOr := bitOr r
      factor := factor r
      embedded := embeddedExpression r
      pattern := pattern r
      block := block r }

def Place.origin : Place := { line := 1, col := 0 }

def parseModule (d : Dialect) (text : List Char) : Option Module := do
  let (tokens, typeIgnores) ← tokenize d .origin true text
  let r := rules d (text.length + 4)
  let (body, rest) ← statements r (Input.start tokens)
  match rest.tokens with
  | [{ kind := .endMarker, .. }] => return { body, typeIgnores }
  | _ => none

def parseExpression (d : Dialect) (text : List Char) : Option Expr := do
  let (tokens, _) ← tokenize d .origin false text
  let r := rules d (text.length + 4)
  let (e, rest) ← elementOrTuple (expression r) (Input.start tokens)
  match rest.tokens.dropWhile (·.kind == .newline) with
  | [{ kind := .endMarker, .. }] => return e
  | _ => none

end TypeStub.Syntax
