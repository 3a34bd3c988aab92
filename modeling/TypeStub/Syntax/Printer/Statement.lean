import TypeStub.Syntax.Printer.Expression
/-!
# Printing statements

The canonical text of a statement, as a list of lines that already carry their indentation. A
docstring is one such line even if it holds line ends.
-/

namespace TypeStub.Syntax

open TypeStub.Text

/-- A text behind the indentation of `depth` blocks. -/
def indented (depth : Nat) (text : String) : String :=
  String.ofList (List.replicate (4 * depth) ' ') ++ text

def typeCommentText : Option String → String
  | none => ""
  | some text => " # type: " ++ text

def Alias.print (a : Alias) : String :=
  a.name ++ (a.asName.elim "" (" as " ++ ·))

/-! ## Patterns -/

mutual

def Pattern.print (level : Nat) : Pattern → Except PrintError String
  | .value e => e.print false Level.test
  | .singleton c => c.print false
  | .sequence patterns => do
    let ps ← printPatterns Level.test patterns
    return "[" ++ join ", " ps ++ "]"
  | .mapping entries rest => do
    let es ← printPatternEntries entries
    let tail := (rest.map ("**" ++ ·)).toList
    return "\x7b" ++ join ", " (es ++ tail) ++ "\x7d"
  | .classOf cls patterns keywords => do
    let c ← cls.print false Level.atom
    let ps ← printPatterns Level.test patterns
    let ks ← printPatternKeywords keywords
    return c ++ "(" ++ join ", " (ps ++ ks) ++ ")"
  | .star name => return "*" ++ name.getD "_"
  | .as none none => return "_"
  | .as none (some name) => return name
  | .as (some _) none => return "_"
  | .as (some pattern) (some name) => do
    let p ← pattern.print Level.bitOr
    return bracketIf level Level.test (p ++ " as " ++ name)
  | .or patterns => do
    let ps ← printPatterns (Level.next Level.bitOr) patterns
    return bracketIf level Level.bitOr (join " | " ps)

def printPatterns (level : Nat) : List Pattern → Except PrintError (List String)
  | [] => return []
  | p :: rest => do
    let t ← p.print level
    let ts ← printPatterns level rest
    return t :: ts

def printPatternEntries : List (Expr × Pattern) → Except PrintError (List String)
  | [] => return []
  | (key, p) :: rest => do
    let k ← key.print false Level.test
    let t ← p.print Level.test
    let ts ← printPatternEntries rest
    return (k ++ ": " ++ t) :: ts

def printPatternKeywords : List (String × Pattern) → Except PrintError (List String)
  | [] => return []
  | (name, p) :: rest => do
    let t ← p.print Level.test
    let ts ← printPatternKeywords rest
    return (name ++ "=" ++ t) :: ts

end

/-! ## Statements without a block -/

def WithItem.print (item : WithItem) : Except PrintError String := do
  let c ← item.context.print false Level.test
  match item.target with
  | none => return c
  | some target =>
    let t ← target.print false Level.test
    return c ++ " as " ++ t

def decoratorLines (depth : Nat) (decorators : List Expr) : Except PrintError (List String) := do
  let texts ← printAll false decorators
  return texts.map fun t => indented depth ("@" ++ t)

def docstringText (ps : List Nat) (marked : Bool) : String :=
  (if marked then "u" else "") ++ sparselyQuoted QuoteMark.multiline ps

def FunctionHead.print (head : FunctionHead) : Except PrintError String := do
  let ps ← printParams false head.params
  let r ← printOption false head.returns
  return (if head.isAsync then "async def " else "def ") ++ head.name ++ "(" ++ join ", " ps
    ++ ")" ++ (r.elim "" (" -> " ++ ·)) ++ ":" ++ typeCommentText head.typeComment

def ClassHead.print (head : ClassHead) : Except PrintError String := do
  let bs ← printAll false head.bases
  let ks ← printKeywords false head.keywords
  let arguments := bs ++ ks
  return "class " ++ head.name
    ++ (if arguments.isEmpty then "" else "(" ++ join ", " arguments ++ ")") ++ ":"

def withOperand (word : String) (operand : Option Expr) : Except PrintError String := do
  let e ← printOption false operand
  return word ++ (e.elim "" (" " ++ ·))

/-- Targets of an assignment, each with its equals sign; tuples need no brackets there. -/
def printTargets : List Expr → Except PrintError String
  | [] => return ""
  | t :: rest => do
    let text ← t.print false Level.tuple
    let ts ← printTargets rest
    return text ++ " = " ++ ts

def isBracketedName (target : Expr) (simple : Bool) : Bool :=
  match target with
  | .name .. => !simple
  | _ => false

/-! ## Blocks -/

mutual

def Stmt.lines (word : String) (depth : Nat) : Stmt → Except PrintError (List String)
  | .functionDef _ head body => do
    let ds ← decoratorLines depth head.decorators
    let h ← head.print
    let b ← documentedLines (depth + 1) body
    return "" :: ds ++ indented depth h :: b
  | .classDef _ head body => do
    let ds ← decoratorLines depth head.decorators
    let h ← head.print
    let b ← documentedLines (depth + 1) body
    return "" :: ds ++ indented depth h :: b
  | .ret _ value => do
    let t ← withOperand "return" value
    return [indented depth t]
  | .delete _ targets => do
    let ts ← printAll false targets
    return [indented depth ("del " ++ join ", " ts)]
  | .assign _ targets value comment => do
    let ts ← printTargets targets
    let v ← value.print false Level.test
    return [indented depth (ts ++ v ++ typeCommentText comment)]
  | .augAssign _ target op value => do
    let t ← target.print false Level.test
    let v ← value.print false Level.test
    return [indented depth (t ++ " " ++ op.text ++ "= " ++ v)]
  | .annAssign _ target annot value simple => do
    let t ← target.print false Level.test
    let a ← annot.print false Level.test
    let v ← printOption false value
    let t := if isBracketedName target simple then "(" ++ t ++ ")" else t
    return [indented depth (t ++ ": " ++ a ++ (v.elim "" (" = " ++ ·)))]
  | .forLoop _ isAsync target iter body orelse comment => do
    let t ← target.print false Level.tuple
    let i ← iter.print false Level.test
    let b ← linesOfAll (depth + 1) body
    let o ← elseLines depth orelse
    let head := (if isAsync then "async for " else "for ") ++ t ++ " in " ++ i ++ ":"
      ++ typeCommentText comment
    return indented depth head :: b ++ o
  | .whileLoop _ test body orelse => do
    let t ← test.print false Level.test
    let b ← linesOfAll (depth + 1) body
    let o ← elseLines depth orelse
    return indented depth ("while " ++ t ++ ":") :: b ++ o
  | .ifElse _ test body orelse => do
    let t ← test.print false Level.test
    let b ← linesOfAll (depth + 1) body
    let o ← branchLines depth orelse
    return indented depth (word ++ " " ++ t ++ ":") :: b ++ o
  | .withBlock _ isAsync items body comment => do
    let is ← items.mapM WithItem.print
    let b ← linesOfAll (depth + 1) body
    let head := (if isAsync then "async with " else "with ") ++ join ", " is ++ ":"
      ++ typeCommentText comment
    return indented depth head :: b
  | .matchCases _ subject cases => do
    let s ← subject.print false Level.test
    let cs ← caseLines (depth + 1) cases
    return indented depth ("match " ++ s ++ ":") :: cs
  | .raise _ exc cause => do
    let e ← withOperand "raise" exc
    let c ← printOption false cause
    return [indented depth (e ++ (c.elim "" (" from " ++ ·)))]
  | .tryBlock _ isStar body handlers orelse finalbody => do
    let b ← linesOfAll (depth + 1) body
    let hs ← handlerLines isStar depth handlers
    let o ← elseLines depth orelse
    let f ← linesOfAll (depth + 1) finalbody
    let f := if f.isEmpty then [] else indented depth "finally:" :: f
    return indented depth "try:" :: b ++ hs ++ o ++ f
  | .assert _ test msg => do
    let t ← test.print false Level.test
    let m ← printOption false msg
    return [indented depth ("assert " ++ t ++ (m.elim "" (", " ++ ·)))]
  | .imports _ names => return [indented depth ("import " ++ join ", " (names.map Alias.print))]
  | .importFrom _ module names level =>
    return [indented depth ("from " ++ String.ofList (List.replicate level '.')
      ++ module.getD "" ++ " import " ++ join ", " (names.map Alias.print))]
  | .global _ names => return [indented depth ("global " ++ join ", " names)]
  | .nonlocal _ names => return [indented depth ("nonlocal " ++ join ", " names)]
  | .expr _ value => do
    let v ← value.print false Level.yield
    return [indented depth v]
  | .pass _ => return [indented depth "pass"]
  | .break _ => return [indented depth "break"]
  | .continue _ => return [indented depth "continue"]

def linesOfAll (depth : Nat) : List Stmt → Except PrintError (List String)
  | [] => return []
  | s :: rest => do
    let ls ← s.lines "if" depth
    let more ← linesOfAll depth rest
    return ls ++ more

def documentedLines (depth : Nat) : List Stmt → Except PrintError (List String)
  | .expr _ (.constant _ (.str ps marked)) :: rest => do
    let more ← linesOfAll depth rest
    return indented depth (docstringText ps marked) :: more
  | [] => return []
  | s :: rest => do
    let ls ← s.lines "if" depth
    let more ← linesOfAll depth rest
    return ls ++ more

/-- The `else` part of a loop or a `try`, if it is not empty. -/
def elseLines (depth : Nat) : List Stmt → Except PrintError (List String)
  | [] => return []
  | s :: rest => do
    let ls ← s.lines "if" (depth + 1)
    let more ← linesOfAll (depth + 1) rest
    return indented depth "else:" :: ls ++ more

/-- The `else` part of a conditional; a conditional alone in it continues the chain. -/
def branchLines (depth : Nat) : List Stmt → Except PrintError (List String)
  | [] => return []
  | s :: rest => do
    match s, rest with
    | .ifElse .., [] => s.lines "elif" depth
    | _, _ =>
      let ls ← s.lines "if" (depth + 1)
      let more ← linesOfAll (depth + 1) rest
      return indented depth "else:" :: ls ++ more

def handlerLines (isStar : Bool) (depth : Nat) :
    List (Handler Stmt) → Except PrintError (List String)
  | [] => return []
  | { kind, name, body } :: rest => do
    let word := if isStar then "except*" else "except"
    let k ← withOperand word kind
    let b ← linesOfAll (depth + 1) body
    let more ← handlerLines isStar depth rest
    return indented depth (k ++ (name.elim "" (" as " ++ ·)) ++ ":") :: b ++ more

def caseLines (depth : Nat) : List (Case Stmt) → Except PrintError (List String)
  | [] => return []
  | { pattern, guard, body } :: rest => do
    let p ← pattern.print Level.test
    let g ← printOption false guard
    let b ← linesOfAll (depth + 1) body
    let more ← caseLines depth rest
    return indented depth ("case " ++ p ++ (g.elim "" (" if " ++ ·)) ++ ":") :: b ++ more

end

/-- The text of a statement on its own, without the empty line in front of a definition. -/
def Stmt.render (s : Stmt) : Except PrintError String := do
  let ls ← s.lines "if" 0
  match s with
  | .functionDef .. | .classDef .. => return join "\n" (ls.drop 1)
  | _ => return join "\n" ls

end TypeStub.Syntax
