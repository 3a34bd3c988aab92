import Mathlib.Data.List.Forall2
import TypeStub.Proofs.Stub.Growth
import TypeStub.Proofs.Stub.Stubbable
/-!
# Definitions in a stub

A configuration that keeps all definitions and all `if` statements loses none, doubles none, and
leaves them in order: the classes, functions and variables of the tree of a stub, each before what
is inside of it, are those of the module, one by one (`definitions_shown`). Bodies of functions and
loops, the cases of a `match` statement, and the other parts of a `try` statement add nothing.
-/

namespace TypeStub

open TypeStub.Syntax StubM

namespace Node

mutual

def preorder : Node → List Node
  | { tags, lines, children } => { tags, lines, children } :: preorderAll children

def preorderAll : List Node → List Node
  | [] => []
  | n :: rest => n.preorder ++ preorderAll rest

end

theorem preorder_eq (n : Node) : n.preorder = n :: preorderAll n.children := by
  cases n
  rw [preorder]

theorem preorderAll_append (ns ms : List Node) :
    preorderAll (ns ++ ms) = preorderAll ns ++ preorderAll ms := by
  induction ns with
  | nil => rfl
  | cons n ns ih => rw [List.cons_append, preorderAll, preorderAll, ih, List.append_assoc]

def isDefinition (n : Node) : Bool :=
  n.tags.contains .classDef || n.tags.contains .function || n.tags.contains .variable

def definitions (nodes : List Node) : List Node :=
  (preorderAll nodes).filter isDefinition

@[simp] theorem definitions_nil : definitions [] = [] := rfl

theorem definitions_append (ns ms : List Node) :
    definitions (ns ++ ms) = definitions ns ++ definitions ms := by
  rw [definitions, preorderAll_append, List.filter_append, definitions, definitions]

theorem definitions_cons (n : Node) (rest : List Node) :
    definitions (n :: rest) = (if n.isDefinition then [n] else []) ++ definitions n.children
      ++ definitions rest := by
  rw [definitions, preorderAll, preorder_eq, List.filter_append, List.filter_cons, definitions,
    definitions]
  split <;> rfl

/-- Nodes that define nothing and have nothing inside. -/
theorem definitions_leaf {tag} (h : ∀ line, (leaf tag line).isDefinition = false) (line : String)
    (rest : List Node) : definitions (leaf tag line :: rest) = definitions rest := by
  rw [definitions_cons, h line]
  rfl

theorem definitions_spacer (rest : List Node) : definitions (spacer :: rest) = definitions rest :=
  definitions_leaf (fun _ => rfl) "" rest

theorem definitions_aside {nodes} (h : AreAside nodes) : definitions nodes = [] := by
  induction nodes with
  | nil => rfl
  | cons n rest ih =>
    obtain ⟨⟨tag, htag, line, rfl⟩, hrest⟩ := List.forall_mem_cons.1 h
    have hplain : ∀ line, (leaf tag line).isDefinition = false := by
      revert htag
      cases tag <;> simp [asideTags, leaf, isDefinition]
    rw [definitions_leaf hplain, ih hrest]

end Node

def Filter.isAlways (f : Filter) : Bool :=
  match f.condition with
  | .const true => true
  | _ => false

theorem Filter.holds_of_isAlways {f : Filter} (h : f.isAlways = true) (ctx : Filter.Context) :
    f.Holds ctx := by
  unfold isAlways at h
  split at h
  · next hcondition => rw [Holds, isMatch, hcondition, Condition.eval]
  · cases h

namespace Syntax

def Expr.isUndotted (e : Expr) : Bool :=
  match e.render with
  | .ok text => !text.toList.contains '.'
  | .error _ => false

mutual

/-- The classes, functions and variables that a statement defines, in order. They are looked for in
the bodies of classes, in all branches of `if` statements, and in the bodies of `try` and `with`
statements. An assignment to something with a dot defines no variable. -/
def Stmt.definitions : Stmt → List Stmt
  | .classDef span head body => .classDef span head body :: definitionsAll body
  | .functionDef span head body => [.functionDef span head body]
  | .assign span targets value comment =>
    if targets.all Expr.isUndotted then [.assign span targets value comment] else []
  | .annAssign span target annot value simple =>
    if target.isUndotted then [.annAssign span target annot value simple] else []
  | .ifElse _ _ body orelse => definitionsAll body ++ definitionsAll orelse
  | .tryBlock _ _ body _ _ _ => definitionsAll body
  | .withBlock _ false _ body _ => definitionsAll body
  | _ => []

def definitionsAll : List Stmt → List Stmt
  | [] => []
  | stmt :: rest => stmt.definitions ++ definitionsAll rest

end

theorem Stmt.definitions_of_isSkipped {stmt : Stmt} (h : stmt.isSkipped = true) :
    stmt.definitions = [] := by
  cases stmt with
  | withBlock span isAsync items body comment =>
    obtain rfl : isAsync = true := h
    simp [Stmt.definitions]
  | imports | importFrom | assign | annAssign | classDef | functionDef | ifElse | tryBlock =>
    cases h
  | _ => simp [Stmt.definitions]

end Syntax

namespace Session

variable {s : Session} {parentTags : List Tag} {last : Option (List Tag)} {nodes : List Node}

/-- A node is that of a variable: its line has the targets, the type, and then the value. -/
def ShowsVariable (s : Session) (n : Node) (targets : List Expr) (simple : Bool)
    (annot : Option Expr) : Prop :=
  .variable ∈ n.tags ∧ ∃ text annotText shown,
    (targetsText targets simple).outcome = .ok text ∧
    (s.optionType annot).outcome = .ok annotText ∧
    n.lines = [text ++ (annotText.elim "" (": " ++ ·)) ++ shown]

/-- A node is that of a definition: it has the tag and the lines of it. The header of a function
depends on where the function is defined. -/
def Shows (s : Session) (n : Node) : Stmt → Prop
  | .classDef _ head _ => n.tags = [.classDef] ∧ ∃ decorators line,
    (decoratorLines head.decorators).outcome = .ok decorators ∧
    (classLine head).outcome = .ok line ∧ n.lines = decorators ++ [line]
  | .functionDef _ head _ => n.tags = [.function] ∧ ∃ parentTags decorators line,
    (decoratorLines head.decorators).outcome = .ok decorators ∧
    (s.functionLine parentTags head).outcome = .ok line ∧ n.lines = decorators ++ [line]
  | .assign _ targets _ _ => s.ShowsVariable n targets true none
  | .annAssign _ target annot _ simple => s.ShowsVariable n [target] simple (some annot)
  | _ => False

/-! ## Statements without statements inside -/

theorem definitions_withEllipsis {tags name inner}
    (h : (s.withEllipsis parentTags tags name inner).outcome = .ok nodes) :
    Node.definitions nodes = Node.definitions inner := by
  obtain ⟨mark, hmark, rfl⟩ := withEllipsis_append h
  rw [Node.definitions_append, Node.definitions_aside hmark, List.append_nil]

theorem all_isUndotted {targets : List Expr} {texts : List String}
    (h : targets.map Expr.render = texts.map .ok) :
    targets.all Expr.isUndotted = true ↔ ∀ t ∈ texts, '.' ∉ t.toList := by
  induction targets generalizing texts with
  | nil =>
    obtain rfl : texts = [] := by simpa using h
    simp
  | cons target targets ih =>
    cases texts with
    | nil => simp at h
    | cons t texts =>
      obtain ⟨htarget, htargets⟩ := List.cons.inj h
      rw [List.all_cons, Bool.and_eq_true, ih htargets, List.forall_mem_cons, Expr.isUndotted,
        htarget]
      simp

/-- The text of the targets has a dot exactly if one of them has: the signs between and around them
have none. -/
theorem targetsText_undotted {targets : List Expr} {simple} {text : String}
    (h : (targetsText targets simple).outcome = .ok text) :
    targets.all Expr.isUndotted = true ↔ '.' ∉ text.toList := by
  unfold targetsText at h
  obtain ⟨texts, htexts, h⟩ := outcome_bind_ok.1 h
  cases h
  rw [all_isUndotted (Source.plainTexts_ok.1 htexts)]
  split <;> simp [Text.mem_join (show '.' ∉ " = ".toList by decide)]

/-! ## All statements -/

theorem stubAssign_shown {targets simple annot value stmt}
    (hdefs : ∀ ctx, s.config.keepDefinitions.Holds ctx)
    (hstmt : ∀ n, s.ShowsVariable n targets simple annot → s.Shows n stmt)
    (h : (s.stubAssign parentTags targets simple annot value).outcome = .ok nodes) :
    List.Forall₂ s.Shows (Node.definitions nodes)
      (if targets.all Expr.isUndotted then [stmt] else []) := by
  obtain ⟨text, htext, ⟨hdot, rfl⟩ | ⟨hdot, annotText, valueText, shown, hannot, _, _,
    hkeep⟩⟩ :=
    stubAssign_ok h
  · rw [if_neg (mt (targetsText_undotted htext).1 (not_not_intro hdot))]
    exact .nil
  · rw [if_pos ((targetsText_undotted htext).2 hdot)]
    obtain ⟨hkeep, _⟩ | ⟨_, rfl⟩ := hkeep
    · exact nomatch (hdefs _).symm.trans hkeep
    · have hvariable : Tag.variable ∈
          (s.variableContext parentTags text annotText valueText).tags := by
        simp [variableContext, context]
      simp only [Node.definitions_cons, Node.isDefinition, List.contains_eq_mem, hvariable,
        decide_true, Bool.or_true, if_true, Node.definitions_nil, List.append_nil]
      exact .cons (hstmt _ ⟨hvariable, text, annotText, shown, htext, hannot, rfl⟩) .nil

theorem stubFunction_shown {span head body} (hdefs : ∀ ctx, s.config.keepDefinitions.Holds ctx)
    (h : (s.stubFunction parentTags head body).outcome = .ok nodes) :
    List.Forall₂ s.Shows (Node.definitions nodes) [.functionDef span head body] := by
  obtain ⟨hkeep, _⟩ | ⟨_, decorators, line, doc, children, hdecorators, hline, hdoc,
    hchildren, rfl⟩ :=
    stubFunction_ok h
  · exact nomatch (hdefs _).symm.trans hkeep
  · rw [Node.definitions_cons, definitions_withEllipsis hchildren,
      Node.definitions_aside (functionDoc_aside hdoc), Node.definitions_spacer]
    exact .cons ⟨rfl, parentTags, decorators, line, hdecorators, hline, rfl⟩ .nil

def Part.stmts : Part → List Stmt
  | .stmt _ _ single => [single]
  | .block _ _ several => several
  | .orelse _ several => several

theorem definitions_branch (lines : List String) (children rest : List Node) :
    Node.definitions ({ tags := [.if], lines, children } :: rest)
      = Node.definitions children ++ Node.definitions rest := by
  rw [Node.definitions_cons]
  rfl

theorem Grows.shown {part : Part} (hdefs : ∀ ctx, s.config.keepDefinitions.Holds ctx)
    (hifs : ∀ ctx, s.config.keepIfStatements.Holds ctx) (h : s.Grows part nodes) :
    List.Forall₂ s.Shows (Node.definitions nodes) (definitionsAll part.stmts) := by
  induction h with
  | imports h | importFrom h =>
    rw [Node.definitions_aside (stubImport_aside h)]
    exact .nil
  | string hstring h =>
    rw [Node.definitions_aside (stubString_ok h).aside]
    simp only [Part.stmts, definitionsAll, Stmt.definitions, List.append_nil]
    exact .nil
  | assign h =>
    simp only [Part.stmts, definitionsAll, Stmt.definitions, List.append_nil]
    exact stubAssign_shown hdefs (fun _ => id) h
  | @annAssign _ _ span target annot value simple _ h =>
    have hall : [target].all Expr.isUndotted = target.isUndotted := by simp
    simp only [Part.stmts, definitionsAll, Stmt.definitions, List.append_nil, ← hall]
    exact stubAssign_shown hdefs (fun _ => id) h
  | functionDef h =>
    simp only [Part.stmts, definitionsAll, Stmt.definitions, List.append_nil]
    exact stubFunction_shown hdefs h
  | classPruned hkeep => exact nomatch (hdefs _).symm.trans hkeep
  | classDef _ hdecorators hline _ hchildren ih =>
    rw [Node.definitions_cons, definitions_withEllipsis hchildren, Node.definitions_spacer]
    simp only [Part.stmts, definitionsAll, Stmt.definitions, List.append_nil, Node.definitions_nil]
    exact .cons ⟨rfl, _, _, hdecorators, hline, rfl⟩ ih
  | skipped h =>
    rw [Part.stmts, definitionsAll, definitionsAll, Stmt.definitions_of_isSkipped h]
    exact .nil
  | ifDropped _ _ hkeep | ifFlattened _ _ _ hkeep _ => exact nomatch (hifs _).symm.trans hkeep
  | ifKept _ _ _ _ hchildren _ ihbody ihelse | elif _ _ hchildren _ ihbody ihelse =>
    rw [definitions_branch, definitions_withEllipsis hchildren]
    simp only [Part.stmts, definitionsAll, Stmt.definitions, List.append_nil]
    exact List.rel_append ihbody ihelse
  | ifKeptFlattened _ _ _ _ hchildren _ ihbody ihelse =>
    -- the body stands in front of the statement, which is then empty
    rw [Node.definitions_append, definitions_branch, definitions_withEllipsis hchildren]
    simp only [Part.stmts, definitionsAll, Stmt.definitions, List.append_nil]
    exact List.rel_append ihbody ihelse
  | tryBlock _ ih | withBlock _ ih =>
    simpa [Part.stmts, definitionsAll, Stmt.definitions] using ih
  | nil | noBranch => exact .nil
  | cons _ _ ihstmt ihrest =>
    rw [Node.definitions_append, Part.stmts, definitionsAll]
    simp only [Part.stmts, definitionsAll, List.append_nil] at ihstmt
    exact List.rel_append ihstmt ihrest
  | orelse _ _ hchildren ih =>
    rw [definitions_branch, definitions_withEllipsis hchildren, Node.definitions_nil,
      List.append_nil]
    exact ih

/-- The classes, functions and variables in the tree of a module are those that the module defines,
one by one and in order, if the configuration keeps all definitions and all `if` statements. -/
theorem definitions_shown {m : Module} {root : Node}
    (hdefs : ∀ ctx, s.config.keepDefinitions.Holds ctx)
    (hifs : ∀ ctx, s.config.keepIfStatements.Holds ctx)
    (h : (s.stubModule m).outcome = .ok root) :
    List.Forall₂ s.Shows (root.preorder.filter Node.isDefinition) (definitionsAll m.body) := by
  obtain ⟨children, hchildren, rfl⟩ := stubModule_grows h
  rw [Node.preorder_eq]
  exact hchildren.shown hdefs hifs

/-! ## A sample -/

/-- A configuration that keeps all definitions, and takes the body of `if T` out of it. -/
def keepDefinitionsConfig : Config :=
  { keepDefinitions := some (.flag true)
    keepTrailingDocstrings := some (.flag true)
    addImplicitNoneReturn := some (.flag false)
    flattenIf := some (.expr "value_is('T')")
    keepVariableValue := some (.flag true) }

def nestedSample : String :=
  "class A:\n x: int\n def f(self):\n  y = 2\nif T:\n z = w = 3\nelif c:\n a.b = 4\n" ++
    "else:\n try:\n  async def g(): ...\n except E:\n  k = 5\n"

def sampleStub? (text : String) : Option (ValidConfig × Module × Node) :=
  match keepDefinitionsConfig.validate, (Stub.sampleSource text).readModule with
  | .ok config, .ok m =>
    match (stubModule ⟨Stub.sampleSource text, config, false, none⟩ m).outcome with
    | .ok root =>
      if config.keepDefinitions.isAlways && config.keepIfStatements.isAlways then
        some (config, m, root)
      else none
    | .error _ => none
  | _, _ => none

theorem sampleStub?_eq_some {text} {config : ValidConfig} {m root}
    (h : sampleStub? text = some (config, m, root)) :
    keepDefinitionsConfig.validate = .ok config ∧
      (∀ ctx, config.keepDefinitions.Holds ctx) ∧
      (∀ ctx, config.keepIfStatements.Holds ctx) ∧
      (Stub.sampleSource text).readModule = .ok m ∧
      (stubModule ⟨Stub.sampleSource text, config, false, none⟩ m).outcome = .ok root := by
  unfold sampleStub? at h
  split at h
  · next config m hconfig hm =>
    split at h
    · next root hroot =>
      split at h
      · next halways =>
        cases h
        obtain ⟨hdefs, hifs⟩ := Bool.and_eq_true_iff.1 halways
        exact ⟨hconfig, Filter.holds_of_isAlways hdefs, Filter.holds_of_isAlways hifs, hm,
          hroot⟩
      · cases h
    · cases h
  · cases h

theorem definitions_shown_on_sample :
    ∃ config m root, keepDefinitionsConfig.validate = .ok config ∧
      (∀ ctx, config.keepDefinitions.Holds ctx) ∧
      (∀ ctx, config.keepIfStatements.Holds ctx) ∧
      (Stub.sampleSource nestedSample).readModule = .ok m ∧
      (stubModule ⟨Stub.sampleSource nestedSample, config, false, none⟩ m).outcome
      = .ok root ∧ (definitionsAll m.body).length = 5 ∧
      List.Forall₂ (Shows ⟨Stub.sampleSource nestedSample, config, false, none⟩)
        (root.preorder.filter Node.isDefinition) (definitionsAll m.body) := by
  have hsample : (sampleStub? nestedSample).map (fun x => (definitionsAll x.2.1.body).length)
      = some 5 := by decide +kernel
  obtain ⟨⟨config, m, root⟩, hstub, hcount⟩ := Option.map_eq_some_iff.1 hsample
  obtain ⟨hconfig, hdefs, hifs, hm, hroot⟩ := sampleStub?_eq_some hstub
  exact ⟨config, m, root, hconfig, hdefs, hifs, hm, hroot, hcount,
    definitions_shown hdefs hifs hroot⟩

end Session

end TypeStub
