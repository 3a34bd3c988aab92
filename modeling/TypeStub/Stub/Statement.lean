import TypeStub.Stub.Imports
import TypeStub.Stub.Signature
/-!
# Stubbing statements

A statement becomes a list of nodes, which are put behind the nodes that its parent has already.
They depend on the parent through its tags and through the tags of its last node only: those of
the last node decide whether a string documents it.
-/

namespace TypeStub

open TypeStub.Syntax

namespace Syntax

def Expr.isString : Expr → Bool
  | .constant _ (.str ..) => true
  | _ => false

def Stmt.isString : Stmt → Bool
  | .expr _ value => value.isString
  | _ => false

end Syntax

namespace Session

/-! ## Contexts -/

def definitionContext (s : Session) (parentTags : List Tag) (tag : Tag) (name : String) :
    Filter.Context :=
  { s.context parentTags [tag] with name := some name }

def conditionContext (s : Session) (parentTags : List Tag) (condition : String) :
    Filter.Context :=
  { s.context parentTags [.if] with value := some condition }

/-! ## Lines -/

def decoratorLines (ds : List Expr) : StubM (List String) := do
  let texts ← Source.plainTexts ds
  texts.mapM fun t => StubM.oneLine ("@" ++ t)

def classKeywords : List (Keyword Expr) → StubM (List String)
  | [] => return []
  | k :: rest => do
    match k.name with
    | none => throw .namelessKeyword
    | some name =>
      let value ← StubM.exprLine k.value
      let more ← classKeywords rest
      return (name ++ " = " ++ value) :: more

def classLine (head : ClassHead) : StubM String := do
  let bases ← Source.plainTexts head.bases
  let keywords ← classKeywords head.keywords
  let all := bases ++ keywords
  let list := if all.isEmpty then "" else "(" ++ Text.join ", " all ++ ")"
  StubM.oneLine ("class " ++ head.name ++ list ++ ":")

def returnsText (s : Session) (parentTags : List Tag) (head : FunctionHead) : StubM String := do
  match head.returns with
  | some returns =>
    let text ← s.source.typeText returns
    return " -> " ++ text
  | none =>
    let ctx := s.definitionContext parentTags .function head.name
    if ← isMatch s.config.addImplicitNoneReturn ctx then return " -> None" else return ""

def functionLine (s : Session) (parentTags : List Tag) (head : FunctionHead) : StubM String := do
  let params ← s.source.signatureText head.params
  let returns ← s.returnsText parentTags head
  let start := if head.isAsync then "async def " else "def "
  StubM.oneLine (start ++ head.name ++ "(" ++ params ++ ")" ++ returns ++ ":")

/-- The body of a node, with a mark added if it is empty or the configuration asks for one. -/
def withEllipsis (s : Session) (parentTags tags : List Tag) (name : Option String)
    (children : List Node) : StubM (List Node) := do
  if children.isEmpty then return [Node.ellipsis]
  else
    let ctx :=
      { s.context parentTags tags with name, childTags := some (Node.allTags children) }
    if ← isMatch s.config.addRedundantEllipsis ctx then return children ++ [Node.ellipsis]
    else return children

/-! ## Statements without statements inside -/

def keptAliases (s : Session) (parentTags : List Tag) (names : List Alias) :
    StubM (List Alias) := do
  let keep ← isMatch s.config.keepUnusedImports (s.context parentTags [.imports])
  match s.used with
  | some used => return if keep then names else names.filter (Alias.isNeeded used)
  | none => return names

/-- The node of an import statement, of which `remade` is left when only some names are kept. -/
def stubImport (s : Session) (parentTags : List Tag) (names : List Alias)
    (remade : List Alias → Stmt) : StubM (List Node) := do
  let kept ← s.keptAliases parentTags names
  if kept.isEmpty then return []
  else
    let text ← StubM.ofPrint (remade kept).render
    let line ← StubM.oneLine text
    return [Node.leaf .imports line]

/-- The text of the targets of an assignment. A single target with an annotation stands in
parentheses unless it is a plain name. -/
def targetsText (targets : List Expr) (simple : Bool) : StubM String := do
  let texts ← Source.plainTexts targets
  let text := Text.join " = " texts
  return if simple then text else "(" ++ text ++ ")"

def variableName (targets : String) : String :=
  String.ofList (Text.strip (targets.toList.takeWhile (· != '=')))

def optionLine : Option Expr → StubM (Option String)
  | none => return none
  | some e => some <$> StubM.exprLine e

def optionType (s : Session) : Option Expr → StubM (Option String)
  | none => return none
  | some e => some <$> s.source.typeText e

def variableContext (s : Session) (parentTags : List Tag) (targets : String)
    (annot value : Option String) : Filter.Context :=
  let tags := [Tag.variable] ++ (if annot.isSome then [.annotated] else [])
    ++ (if value.isSome then [.assigned] else [])
  { s.context parentTags tags with name := some (variableName targets), annot, value }

def shownValue (s : Session) (keep : Bool) (name : String) : Option String → StubM String
  | none => return ""
  | some text => do
    if keep then return " = " ++ text
    else
      s.sayPruned ("value of variable " ++ name)
      return " = ..."

/-- The node of an assignment. One whose targets have a dot changes something that exists and
defines nothing. -/
def stubAssign (s : Session) (parentTags : List Tag) (targets : List Expr) (simple : Bool)
    (annot value : Option Expr) : StubM (List Node) := do
  let targetText ← targetsText targets simple
  if targetText.toList.contains '.' then return []
  else
    let annotText ← s.optionType annot
    let valueText ← optionLine value
    let ctx := s.variableContext parentTags targetText annotText valueText
    let keepValue ← isMatch s.config.keepVariableValue ctx
    let shown ← s.shownValue keepValue (variableName targetText) valueText
    let line ← StubM.oneLine (targetText ++ (annotText.elim "" (": " ++ ·)) ++ shown)
    if ← isMatch s.config.keepDefinitions ctx then
      return [{ tags := ctx.tags, lines := [line], children := [] }]
    else
      s.sayPruned ("variable " ++ variableName targetText)
      return []

def stubString (s : Session) (parentTags : List Tag) (last : Option (List Tag)) (span : Span) :
    StubM (List Node) := do
  let keep ← match last with
    | none => pure true
    | some tags => isMatch s.config.keepTrailingDocstrings (s.context parentTags tags)
  if keep then
    let text ← s.source.spanText span
    return [Node.leaf .docstring text]
  else return []

def functionDoc (s : Session) : List Stmt → StubM (List Node)
  | first :: _ => if first.isString then s.stubString [.function] none first.span else return []
  | [] => return []

def stubFunction (s : Session) (parentTags : List Tag) (head : FunctionHead) (body : List Stmt) :
    StubM (List Node) := do
  if ← isMatch s.config.keepDefinitions (s.definitionContext parentTags .function head.name) then
    Source.sayTypeComment head.typeComment "function"
    let decorators ← decoratorLines head.decorators
    let line ← s.functionLine parentTags head
    let doc ← s.functionDoc body
    let children ← s.withEllipsis parentTags [.function] (some head.name) doc
    return [{ tags := [.function], lines := decorators ++ [line], children }, Node.spacer]
  else
    s.sayPruned ("function " ++ head.name)
    return []

def stubOther (s : Session) (stmt : Stmt) : StubM Unit :=
  match stmt with
  | .pass _ | .forLoop _ false .. | .assert .. | .delete .. | .raise .. | .augAssign ..
  | .whileLoop .. | .matchCases .. | .expr .. => s.sayIgnored stmt
  | _ => do
    let text ← StubM.ofPrint stmt.render
    StubM.sayUnexpected (stmt.className ++ " statement (`" ++ text ++ "`)")

def branchNode (s : Session) (parentTags : List Tag) (line : String) (children : List Node) :
    StubM Node := do
  let children ← s.withEllipsis parentTags [.if] none children
  return { tags := [.if], lines := [line], children }

/-- The nodes of an `if` statement behind what its body leaves in front of it. The steps that stub
its branches are taken only if it is kept. -/
def ifNodes (s : Session) (parentTags : List Tag) (condition : String) (outer : List Node)
    (inner others : StubM (List Node)) : StubM (List Node) := do
  if ← isMatch s.config.keepIfStatements (s.context parentTags [.if]) then
    let line ← StubM.oneLine ("if " ++ condition ++ ":")
    let children ← inner
    let first ← s.branchNode parentTags line children
    let more ← others
    return outer ++ first :: more
  else return outer

/-! ## All statements -/

mutual

/-- The nodes of a statement below a parent with the given tags, whose last node has the tags
`last`. -/
def stub (s : Session) (parentTags : List Tag) (last : Option (List Tag)) :
    Stmt → StubM (List Node)
  | .imports span names => s.stubImport parentTags names fun kept => .imports span kept
  | .importFrom span module names level =>
    s.stubImport parentTags names fun kept => .importFrom span module kept level
  | .assign _ targets value typeComment => do
    Source.sayTypeComment typeComment "variable"
    s.stubAssign parentTags targets true none (some value)
  | .annAssign _ target annot value simple =>
    s.stubAssign parentTags [target] simple (some annot) value
  | .classDef _ head body => do
    if ← isMatch s.config.keepDefinitions (s.definitionContext parentTags .classDef head.name) then
      let decorators ← decoratorLines head.decorators
      let line ← classLine head
      let inner ← s.stubAll [.classDef] none body
      let children ← s.withEllipsis parentTags [.classDef] (some head.name) inner
      return [{ tags := [.classDef], lines := decorators ++ [line], children }, Node.spacer]
    else
      s.sayPruned ("class " ++ head.name)
      return []
  | .functionDef _ head body => s.stubFunction parentTags head body
  | .expr span value => do
    if value.isString then s.stubString parentTags last span
    else
      s.stubOther (.expr span value)
      return []
  | .ifElse _ test body orelse => do
    let condition ← StubM.exprLine test
    let flatten ← isMatch s.config.flattenIf (s.conditionContext parentTags condition)
    let others := s.stubElse parentTags orelse
    if flatten then
      let outer ← s.stubAll parentTags last body
      s.ifNodes parentTags condition outer (pure []) others
    else s.ifNodes parentTags condition [] (s.stubAll [.if] none body) others
  | .tryBlock _ _ body _ _ _ => s.stubAll parentTags last body
  | .withBlock span isAsync items body typeComment => do
    if isAsync then
      s.stubOther (.withBlock span isAsync items body typeComment)
      return []
    else s.stubAll parentTags last body
  | stmt => do
    s.stubOther stmt
    return []

def stubAll (s : Session) (parentTags : List Tag) (last : Option (List Tag)) :
    List Stmt → StubM (List Node)
  | [] => return []
  | stmt :: rest => do
    let nodes ← s.stub parentTags last stmt
    let more ← s.stubAll parentTags ((Node.lastTags nodes).or last) rest
    return nodes ++ more

/-- The nodes of the further branches of an `if` statement. -/
def stubElse (s : Session) (parentTags : List Tag) : List Stmt → StubM (List Node)
  | [] => return []
  | [.ifElse _ test body orelse] => do
    let condition ← StubM.exprLine test
    let line ← StubM.oneLine ("elif " ++ condition ++ ":")
    let inner ← s.stubAll [.if] none body
    let branch ← s.branchNode parentTags line inner
    let others ← s.stubElse parentTags orelse
    return branch :: others
  | stmt :: rest => do
    let nodes ← s.stub [.if] none stmt
    let more ← s.stubAll [.if] (Node.lastTags nodes) rest
    let branch ← s.branchNode parentTags "else:" (nodes ++ more)
    return [branch]

end

def stubModule (s : Session) (m : Module) : StubM Node := do
  if m.typeIgnores > 0 then StubM.sayUnexpected "Type comment on module"
  let children ← s.stubAll [.module] none m.body
  return { tags := [.module], lines := [], children }

def output (s : Session) (m : Module) : StubM String := do
  let node ← s.stubModule m
  return node.text

end Session

end TypeStub
