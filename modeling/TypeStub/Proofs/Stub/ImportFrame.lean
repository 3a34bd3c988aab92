import TypeStub.Proofs.Stub.Lockstep
import TypeStub.Proofs.Stub.Pruning
/-!
# What pruning imports leaves alone

A session that knows which names are used leaves out other imports. This changes nothing else but
documentation strings and the marks for empty bodies, at any depth: without these and the imports
both trees are the same. `Choices.importsOf` lists the import statements that stubbing comes to,
whatever names are used. Without pruning each of them is shown, and with pruning what is left of
each is shown, if anything is (`outline_and_imports_pruned`). No import of a name in use is lost
(`used_imports_left`).
-/

namespace TypeStub

open TypeStub.Syntax StubM

/-! ## Trees without imports, documentation strings and marks -/

namespace Node

def isAside (n : Node) : Bool :=
  n.tags.any asideTags.contains

mutual

def outline : Node → Node
  | { tags, lines, children } => { tags, lines, children := outlineAll children }

def outlineAll : List Node → List Node
  | [] => []
  | n :: rest => if n.isAside then outlineAll rest else n.outline :: outlineAll rest

end

theorem outlineAll_append (ns ms : List Node) :
    outlineAll (ns ++ ms) = outlineAll ns ++ outlineAll ms := by
  induction ns with
  | nil => simp [outlineAll]
  | cons n ns ih =>
    rw [List.cons_append, outlineAll, outlineAll, ih]
    split
    · rfl
    · rw [List.cons_append]

theorem outlineAll_aside {nodes} (h : AreAside nodes) : outlineAll nodes = [] := by
  induction nodes with
  | nil => rw [outlineAll]
  | cons n rest ih =>
    obtain ⟨⟨tag, htag, line, rfl⟩, hrest⟩ := List.forall_mem_cons.1 h
    have haside : (leaf tag line).isAside = true := by simpa [isAside, leaf] using htag
    rw [outlineAll, if_pos haside, ih hrest]

theorem coherent_outline : Coherent fun ns ns' => outlineAll ns' = outlineAll ns where
  refl nodes := rfl
  aside h h' := by rw [outlineAll_aside h, outlineAll_aside h']
  append h h' := by rw [outlineAll_append, outlineAll_append, h, h']
  inside h := by
    simp only [outlineAll, outline, isAside, h]
    rfl

/-! ## Nodes of imports -/

def imports (nodes : List Node) : List Node :=
  (preorderAll nodes).filter fun n => n.tags.contains .imports

@[simp] theorem imports_nil : imports [] = [] := rfl

theorem imports_append (ns ms : List Node) : imports (ns ++ ms) = imports ns ++ imports ms := by
  rw [imports, preorderAll_append, List.filter_append, imports, imports]

theorem imports_cons {n} (h : n.tags.contains .imports = false) (rest : List Node) :
    imports (n :: rest) = imports n.children ++ imports rest := by
  rw [imports, preorderAll, preorder_eq, List.filter_append, List.filter_cons, h,
    if_neg Bool.false_ne_true, imports, imports]

theorem imports_spacer : imports [spacer] = [] := rfl

end Node

namespace Syntax

def Stmt.importing (kept : List Alias) : Stmt → Stmt
  | .imports span _ => .imports span kept
  | .importFrom span module _ level => .importFrom span module kept level
  | stmt => stmt

theorem Stmt.importing_aliases (stmt : Stmt) : stmt.importing stmt.aliases = stmt := by
  cases stmt <;> rfl

end Syntax

def Filter.accepts (f : Filter) (ctx : Filter.Context) : Bool :=
  match f.isMatch ctx with
  | .ok b => b
  | .error _ => false

theorem Filter.accepts_of_ok {f : Filter} {ctx b} (h : f.isMatch ctx = .ok b) :
    f.accepts ctx = b := by
  rw [accepts, h]

namespace Session

/-! ## Which imports are come to -/

/-- An import statement, and the tags of the node above it. -/
structure PlacedImport where
  parentTags : List Tag
  stmt : Stmt

/-- What decides which statements are come to: which classes are kept below a parent with given
tags, which `if` statements give their bodies to their parent, and which of them are kept. -/
structure Choices where
  keepsClass : List Tag → String → Bool
  flattens : List Tag → String → Bool
  keepsIf : List Tag → Bool

def choices (s : Session) : Choices where
  keepsClass parentTags name :=
    s.config.keepDefinitions.accepts (s.definitionContext parentTags .classDef name)
  flattens parentTags condition :=
    s.config.flattenIf.accepts (s.conditionContext parentTags condition)
  keepsIf parentTags := s.config.keepIfStatements.accepts (s.context parentTags [.if])

namespace Choices

def importOf (parentTags : List Tag) (stmt : Stmt) : List PlacedImport :=
  if stmt.aliases.isEmpty then [] else [⟨parentTags, stmt⟩]

mutual

/-- The import statements that stubbing comes to in a statement, in order. -/
def importsOf (c : Choices) (parentTags : List Tag) : Stmt → List PlacedImport
  | .imports span names => importOf parentTags (.imports span names)
  | .importFrom span module names level =>
    importOf parentTags (.importFrom span module names level)
  | .classDef _ head body =>
    if c.keepsClass parentTags head.name then c.importsOfAll [.classDef] body else []
  | .ifElse _ test body orelse =>
    match test.render with
    | .error _ => []
    | .ok condition =>
      (if c.flattens parentTags condition then c.importsOfAll parentTags body
        else if c.keepsIf parentTags then c.importsOfAll [.if] body else [])
      ++ (if c.keepsIf parentTags then c.importsOfElse orelse else [])
  | .tryBlock _ _ body _ _ _ => c.importsOfAll parentTags body
  | .withBlock _ false _ body _ => c.importsOfAll parentTags body
  | _ => []

def importsOfAll (c : Choices) (parentTags : List Tag) : List Stmt → List PlacedImport
  | [] => []
  | stmt :: rest => c.importsOf parentTags stmt ++ c.importsOfAll parentTags rest

/-- The import statements in the further branches of an `if` statement. -/
def importsOfElse (c : Choices) : List Stmt → List PlacedImport
  | [] => []
  | [.ifElse _ _ body orelse] => c.importsOfAll [.if] body ++ c.importsOfElse orelse
  | stmt :: rest => c.importsOf [.if] stmt ++ c.importsOfAll [.if] rest

end

def importsIn (c : Choices) : Part → List PlacedImport
  | .stmt parentTags _ single => c.importsOf parentTags single
  | .block parentTags _ several => c.importsOfAll parentTags several
  | .orelse _ several => c.importsOfElse several

variable {c : Choices} {parentTags : List Tag}

theorem importsOf_of_isSkipped {stmt} (h : stmt.isSkipped = true) :
    c.importsOf parentTags stmt = [] := by
  cases stmt with
  | withBlock span isAsync items body comment =>
    obtain rfl : isAsync = true := h
    simp [importsOf]
  | imports | importFrom | assign | annAssign | classDef | functionDef | ifElse | tryBlock =>
    cases h
  | _ => simp [importsOf]

theorem importsOfElse_orelse {stmt rest}
    (h : ∀ span test body orelse, stmt :: rest ≠ [.ifElse span test body orelse]) :
    c.importsOfElse (stmt :: rest) = c.importsOfAll [.if] (stmt :: rest) := by
  rw [importsOfElse, importsOfAll]
  rintro span test body orelse rfl rfl
  exact h span test body orelse rfl

end Choices

/-! ## What is left of them -/

/-- What is left of an import statement if the names in `used` are needed: all of it if the filter
for unused imports matches where it stands, and else what imports all names, passes a name on, or
binds one of these names. -/
def leftOf (s : Session) (used : List String) (i : PlacedImport) : Option Stmt :=
  if s.config.keepUnusedImports.accepts (s.context i.parentTags [.imports]) then some i.stmt
  else
    match i.stmt.aliases.filter fun a =>
      a.boundName == "*" || a.isExport || used.contains a.boundName with
    | [] => none
    | kept => some (i.stmt.importing kept)

def left (s : Session) (i : PlacedImport) : Option Stmt :=
  match s.used with
  | none => some i.stmt
  | some used => s.leftOf used i

/-- A node is that of an import statement. -/
def IsImportOf (n : Node) (stmt : Stmt) : Prop :=
  ∃ line, stmt.render = .ok line ∧ n = Node.leaf .imports line

variable {s : Session} {parentTags : List Tag} {last : Option (List Tag)} {nodes : List Node}

theorem isNeeded_eq (used : List String) : Alias.isNeeded used = fun a =>
    a.boundName == "*" || a.isExport || used.contains a.boundName := by
  funext a
  rw [Alias.isNeeded, Bool.or_right_comm]

theorem keptAliases_eq {names kept : List Alias}
    (h : (s.keptAliases parentTags names).outcome = .ok kept) : kept = match s.used with
      | none => names
      | some used =>
        if s.config.keepUnusedImports.accepts (s.context parentTags [.imports]) then names
        else names.filter (Alias.isNeeded used) := by
  obtain ⟨hnone, rfl⟩ | ⟨used, keep, hused, hkeep, rfl⟩ := keptAliases_cases h
  · rw [hnone]
  · rw [hused, Filter.accepts_of_ok (isMatch_ok.1 hkeep)]

theorem left_of_keptAliases {stmt kept} (hstmt : stmt.aliases ≠ [])
    (h : (s.keptAliases parentTags stmt.aliases).outcome = .ok kept) :
    s.left ⟨parentTags, stmt⟩ = if kept = [] then none else some (stmt.importing kept) := by
  rw [keptAliases_eq h, left]
  cases s.used with
  | none => rw [if_neg hstmt, Stmt.importing_aliases]
  | some used =>
    simp only [leftOf, isNeeded_eq]
    cases s.config.keepUnusedImports.accepts (s.context parentTags [.imports]) with
    | true =>
      simp only [if_true]
      rw [if_neg hstmt, Stmt.importing_aliases]
    | false =>
      simp only [Bool.false_eq_true, if_false]
      cases stmt.aliases.filter _ <;> rfl

theorem stubImport_left (stmt : Stmt)
    (h : (s.stubImport parentTags stmt.aliases (stmt.importing ·)).outcome = .ok nodes) :
    List.Forall₂ IsImportOf (Node.imports nodes)
      ((Choices.importOf parentTags stmt).filterMap s.left) := by
  obtain ⟨kept, hkept, hnodes⟩ := stubImport_ok h
  unfold Choices.importOf
  by_cases hstmt : stmt.aliases = []
  · have hnil : kept = [] := by
      rw [keptAliases_eq hkept, hstmt]
      cases s.used <;> simp
    obtain ⟨_, rfl⟩ | ⟨hne, _⟩ := hnodes
    · simp [hstmt]
    · exact absurd hnil hne
  · rw [if_neg (by simpa using hstmt), List.filterMap_cons, left_of_keptAliases hstmt hkept]
    obtain ⟨rfl, rfl⟩ | ⟨hne, line, hline, _, rfl⟩ := hnodes
    · exact .nil
    · rw [if_neg hne]
      exact .cons ⟨line, hline, rfl⟩ .nil

/-! ## Nodes of other statements -/

theorem imports_withEllipsis {tags name inner}
    (h : (s.withEllipsis parentTags tags name inner).outcome = .ok nodes) :
    Node.imports nodes = Node.imports inner := by
  obtain ⟨rfl, rfl⟩ | ⟨_, rfl | rfl⟩ := withEllipsis_ok h
  · rfl
  · rfl
  · rw [Node.imports_append]
    exact List.append_nil _

theorem imports_stubAssign {targets simple annot value}
    (h : (s.stubAssign parentTags targets simple annot value).outcome = .ok nodes) :
    Node.imports nodes = [] := by
  obtain ⟨text, _, ⟨_, rfl⟩ | ⟨_, annotText, valueText, shown, _, _, _,
    ⟨_, rfl⟩ | ⟨_, rfl⟩⟩⟩ :=
    stubAssign_ok h
  · rfl
  · rfl
  · cases annotText <;> cases valueText <;> rfl

theorem imports_stubFunction {head body}
    (h : (s.stubFunction parentTags head body).outcome = .ok nodes) : Node.imports nodes = [] := by
  obtain ⟨_, rfl⟩ | ⟨_, decorators, line, doc, children, _, _, hdoc, hchildren, rfl⟩ :=
    stubFunction_ok h
  · rfl
  · have hinside : Node.imports children = [] := by
      rw [imports_withEllipsis hchildren]
      obtain rfl | ⟨_, _, _, -, -, ⟨-, rfl⟩ | ⟨-, _, -, rfl⟩⟩ :=
        functionDoc_ok hdoc <;> rfl
    rw [Node.imports_cons rfl, hinside]
    rfl

theorem imports_stubString {span} (h : (s.stubString parentTags last span).outcome = .ok nodes) :
    Node.imports nodes = [] := by
  obtain ⟨-, rfl⟩ | ⟨-, _, _, rfl⟩ := stubString_ok h <;> rfl

/-! ## All statements -/

open Choices

theorem importsOf_ifElse {span test body orelse condition flat keep}
    (h : test.render = .ok condition)
    (hflat : s.config.flattenIf.isMatch (s.conditionContext parentTags condition) = .ok flat)
    (hkeep : s.config.keepIfStatements.isMatch (s.context parentTags [.if]) = .ok keep) :
    s.choices.importsOf parentTags (.ifElse span test body orelse) =
      (if flat then s.choices.importsOfAll parentTags body
        else if keep then s.choices.importsOfAll [.if] body else [])
      ++ (if keep then s.choices.importsOfElse orelse else []) := by
  rw [importsOf, h, ← Filter.accepts_of_ok hflat, ← Filter.accepts_of_ok hkeep]
  rfl

theorem Grows.imports_left {part} (h : s.Grows part nodes) :
    List.Forall₂ IsImportOf (Node.imports nodes)
      ((s.choices.importsIn part).filterMap s.left) := by
  induction h with
  | @imports _ _ span names _ h =>
    have h := stubImport_left (.imports span names) h
    rwa [importsIn, importsOf]
  | @importFrom _ _ span module names level _ h =>
    have h := stubImport_left (.importFrom span module names level) h
    rwa [importsIn, importsOf]
  | assign h | annAssign h =>
    rw [imports_stubAssign h, importsIn]
    simp [importsOf]
  | functionDef h =>
    rw [imports_stubFunction h, importsIn]
    simp [importsOf]
  | string _ h =>
    rw [imports_stubString h, importsIn]
    simp [importsOf]
  | skipped hskip =>
    rw [importsIn, importsOf_of_isSkipped hskip]
    exact .nil
  | classPruned hmatch =>
    rw [importsIn, importsOf, show s.choices.keepsClass _ _ = _ from Filter.accepts_of_ok hmatch]
    exact .nil
  | classDef hmatch _ _ _ hchildren ih =>
    rw [importsIn, importsOf, show s.choices.keepsClass _ _ = _ from Filter.accepts_of_ok hmatch,
      if_pos rfl,
      Node.imports_cons rfl, imports_withEllipsis hchildren, Node.imports_spacer, List.append_nil]
    exact ih
  | ifDropped htest hflat hif =>
    rw [importsIn, importsOf_ifElse htest hflat hif]
    exact .nil
  | ifFlattened htest hflat _ hif ih =>
    rw [importsIn, importsOf_ifElse htest hflat hif, if_pos rfl, if_neg Bool.false_ne_true,
      List.append_nil]
    exact ih
  | ifKept htest hflat hif _ hchildren _ ihbody ihelse =>
    rw [importsIn, importsOf_ifElse htest hflat hif, if_neg Bool.false_ne_true, if_pos rfl,
      if_pos rfl, Node.imports_cons rfl, imports_withEllipsis hchildren, List.filterMap_append]
    exact List.rel_append ihbody ihelse
  | ifKeptFlattened htest hflat _ hif hchildren _ ihbody ihelse =>
    rw [importsIn, importsOf_ifElse htest hflat hif, if_pos rfl, if_pos rfl, Node.imports_append,
      Node.imports_cons rfl, imports_withEllipsis hchildren, Node.imports_nil, List.nil_append,
      List.filterMap_append]
    exact List.rel_append ihbody ihelse
  | tryBlock _ ih | withBlock _ ih => rwa [importsIn, importsOf]
  | nil => exact .nil
  | cons _ _ ihstmt ihrest =>
    rw [importsIn, importsOfAll, Node.imports_append, List.filterMap_append]
    exact List.rel_append ihstmt ihrest
  | noBranch => exact .nil
  | elif htest _ hchildren _ ihbody ihelse =>
    rw [importsIn, importsOfElse, Node.imports_cons rfl,
      imports_withEllipsis hchildren, List.filterMap_append]
    exact List.rel_append ihbody ihelse
  | orelse hnot _ hchildren ih =>
    rw [importsIn, importsOfElse_orelse hnot, Node.imports_cons rfl,
      imports_withEllipsis hchildren, Node.imports_nil, List.append_nil]
    exact ih

/-! ## The whole module -/

/-- Which names are in use does not show but in imports, documentation strings and marks. -/
theorem stubModule_outline {source config debug used m} {whole root : Node}
    (hwhole : (stubModule ⟨source, config, debug, none⟩ m).outcome = .ok whole)
    (hroot : (stubModule ⟨source, config, debug, used⟩ m).outcome = .ok root) :
    root.outline = whole.outline := by
  obtain ⟨children, hchildren, rfl⟩ := stubModule_ok hwhole
  obtain ⟨children', hchildren', rfl⟩ := stubModule_ok hroot
  have hallows : Allows ⟨source, config, debug, none⟩ config.keepDefinitions
      fun ns ns' => Node.outlineAll ns' = Node.outlineAll ns :=
    { Node.coherent_outline with
      keeps := fun _ => id
      gained := fun hmatch hmatch' => nomatch hmatch.symm.trans hmatch' }
  rw [Node.outline, Node.outline,
    @stubAll_relates _ _ used _ hallows _ _ _ m.body _ _ hchildren hchildren']

/-- **Pruning imports leaves all else alone.** A module is stubbed once with all its imports, and
once with those that the names in `used` need. Without imports, documentation strings and marks for
empty bodies both trees are the same. The imports of the one are the import statements that stubbing
comes to, and those of the other are what is left of them, each in order. -/
theorem outline_and_imports_pruned {source : Source} {config : ValidConfig} {debug : Bool}
    {used : List String} {m : Module} {whole pruned : Node}
    (hwhole : (stubModule ⟨source, config, debug, none⟩ m).outcome = .ok whole)
    (hpruned : (stubModule ⟨source, config, debug, some used⟩ m).outcome = .ok pruned) :
    let s : Session := ⟨source, config, debug, none⟩
    let imports := s.choices.importsOfAll [.module] m.body
    pruned.outline = whole.outline ∧
      List.Forall₂ IsImportOf (whole.preorder.filter fun n => n.tags.contains .imports)
        (imports.map PlacedImport.stmt) ∧
      List.Forall₂ IsImportOf (pruned.preorder.filter fun n => n.tags.contains .imports)
        (imports.filterMap (s.leftOf used)) := by
  obtain ⟨children, hchildren, rfl⟩ := stubModule_ok hwhole
  obtain ⟨children', hchildren', rfl⟩ := stubModule_ok hpruned
  refine ⟨stubModule_outline hwhole hpruned, ?_, ?_⟩
  · rw [Node.preorder_eq, ← List.filterMap_eq_map]
    exact (stubAll_grows _ _ _ hchildren).imports_left
  · rw [Node.preorder_eq]
    exact (stubAll_grows _ _ _ hchildren').imports_left

/-! A sample with an import of which a part is needed, and others of which nothing is. -/

def partlyNeeded : String := "import a\nfrom b import c as c, d, e\nif x:\n import f\n"

/-- The trees of the sample with all imports, and with those that the name `d` needs. -/
def wholeAndPruned? : Option (ValidConfig × Module × Node × Node) := do
  let config ← Stub.keepPublic.validate.toOption
  let m ← (Stub.sampleSource partlyNeeded).readModule.toOption
  let s : Session := ⟨Stub.sampleSource partlyNeeded, config, false, none⟩
  let whole ← (s.stubModule m).outcome.toOption
  let pruned ← ({ s with used := some ["d"] }.stubModule m).outcome.toOption
  return (config, m, whole, pruned)

theorem outline_and_imports_pruned_on_sample :
    ∃ config m whole pruned, Stub.keepPublic.validate = .ok config ∧
      (Stub.sampleSource partlyNeeded).readModule = .ok m ∧
      (stubModule ⟨Stub.sampleSource partlyNeeded, config, false, none⟩ m).outcome
      = .ok whole ∧
      (stubModule ⟨Stub.sampleSource partlyNeeded, config, false, some ["d"]⟩ m).outcome
        = .ok pruned ∧
      (pruned.preorder.filter fun n => n.tags.contains .imports).map Node.lines
        = [["from b import c as c, d"]] ∧
      pruned.outline = whole.outline ∧
      let s : Session := ⟨Stub.sampleSource partlyNeeded, config, false, none⟩
      let imports := s.choices.importsOfAll [.module] m.body
      List.Forall₂ IsImportOf (whole.preorder.filter fun n => n.tags.contains .imports)
          (imports.map PlacedImport.stmt) ∧
        List.Forall₂ IsImportOf (pruned.preorder.filter fun n => n.tags.contains .imports)
          (imports.filterMap (s.leftOf ["d"])) := by
  have hsample : wholeAndPruned?.map (fun (_, _, _, pruned) =>
      (pruned.preorder.filter fun n => n.tags.contains .imports).map Node.lines)
        = some [["from b import c as c, d"]] := by
    decide +kernel
  obtain ⟨⟨config, m, whole, pruned⟩, htrees, hlines⟩ := Option.map_eq_some_iff.1 hsample
  simp only [wholeAndPruned?, Option.bind_eq_bind, Option.bind_eq_some_iff, toOption_eq_some_iff]
    at htrees
  obtain ⟨_, hconfig, _, hm, _, hwhole, _, hpruned, ⟨⟩⟩ := htrees
  obtain ⟨houtline, himports⟩ := outline_and_imports_pruned hwhole hpruned
  exact ⟨config, m, whole, pruned, hconfig, hm, hwhole, hpruned, hlines, houtline, himports⟩

/-! ## Imports of names in use -/

theorem left_of_used {i : PlacedImport} {a} (ha : a ∈ i.stmt.aliases)
    (hused : ∀ used, s.used = some used → a.boundName ∈ used) :
    ∃ kept, s.left i = some (i.stmt.importing kept) ∧ a ∈ kept := by
  have hwhole :
    some i.stmt = some (i.stmt.importing i.stmt.aliases) := by rw [Stmt.importing_aliases]
  unfold left
  split
  · exact ⟨_, hwhole, ha⟩
  · next used hsome =>
    have hkept : a ∈ i.stmt.aliases.filter fun a =>
        a.boundName == "*" || a.isExport || used.contains a.boundName :=
      List.mem_filter.2 ⟨ha, by simp [hused used hsome]⟩
    unfold leftOf
    split
    · exact ⟨_, hwhole, ha⟩
    · split
      · next hnil =>
        rw [hnil] at hkept
        cases hkept
      · exact ⟨_, rfl, hkept⟩

end Session

namespace Stub

open Session (IsImportOf)

/-- Each import that stubbing comes to in a module, of a name that a statement of the module uses,
is among the statements that are left. -/
def KeepsUsed (config : ValidConfig) (debug : Bool) (source : Source) (m : Module)
    (left : List Stmt) : Prop :=
  ∀ i ∈ (Session.choices ⟨source, config, debug, none⟩).importsOfAll [.module] m.body,
    ∀ a ∈ i.stmt.aliases, ∀ stmt ∈ m.body, source.Uses stmt a.boundName →
      ∃ kept, i.stmt.importing kept ∈ left ∧ a ∈ kept

/-- The first pass leaves a text as it is. -/
def Settled (config : ValidConfig) (debug : Bool) (path : Path) (text : String) : Prop :=
  (pass config debug (sourceOf config path text.toList) none false).outcome = .ok (text, none)

/-- **No import of a name in use is lost.** The names count that are in use in the text between the
passes. If the first pass leaves that text as it is, then they are those of the stub: but for
imports, documentation strings and marks both have the same tree. -/
theorem used_imports_left {config : ValidConfig} {debug : Bool} {path : Path} {text : List Char}
    {out : String} (h : (generate config debug path text).outcome = .ok out) :
    ∃ between m used root left, Made config debug path text between m used root out ∧
      List.Forall₂ IsImportOf (root.preorder.filter fun n => n.tags.contains .imports) left ∧
      KeepsUsed config debug (sourceOf config path between.toList) m left ∧
      (Settled config debug path between → ∃ whole : Node, between = whole.text ∧
        root.outline = whole.outline) := by
  obtain ⟨between, m, used, root, hmade, hlooks⟩ := generate_made h
  obtain ⟨children, hgrows, rfl⟩ := Session.stubModule_grows hmade.tree
  refine ⟨between, m, used, _, _, hmade, hgrows.imports_left, ?_, fun hsettled => ?_⟩
  · intro i hi a ha stmt hstmt huses
    obtain ⟨kept, hleft, hkept⟩ :=
      Session.left_of_used (s := ⟨_, config, debug, used⟩) (i := i) ha fun names hnames => by
        obtain hlooks | hnone := hlooks
        · obtain ⟨_, rfl, hmem⟩ := hmade.lookedUp hlooks
          cases hnames
          exact (hmem _).2 ⟨stmt, hstmt, huses⟩
        · cases hnone.symm.trans hnames
    exact ⟨kept, List.mem_filterMap.2 ⟨i, hi, hleft⟩, hkept⟩
  · obtain ⟨_, whole, hread, -, hwhole, hlines⟩ := pass_ok hsettled
    obtain rfl := Except.ok.inj (hmade.read.symm.trans hread)
    exact ⟨whole, hlines, Session.stubModule_outline hwhole hmade.tree⟩

theorem used_imports_left_on_sample : ∃ config m used root left, ∃ whole : Node,
    keepPublic.validate = .ok config ∧
      (generate config false samplePath importsSample.toList).outcome = .ok importsStub ∧
      Made config false samplePath importsSample.toList importsSample m used root importsStub ∧
      List.Forall₂ IsImportOf (root.preorder.filter fun n => n.tags.contains .imports) left ∧
      KeepsUsed config false (sampleUnder config importsSample) m left ∧
      Settled config false samplePath importsSample ∧ importsSample = whole.text ∧
      root.outline = whole.outline := by
  have hsample : keepPublic.validate.toOption.any (fun config =>
      decide ((generate config false samplePath importsSample.toList).outcome = .ok importsStub)
      && decide ((pass config false (sampleUnder config importsSample) none false).outcome
        = .ok (importsSample, none))) = true := by decide +kernel
  simp only [any_toOption_iff, Bool.and_eq_true, decide_eq_true_eq] at hsample
  obtain ⟨config, hconfig, hstub, hsettled⟩ := hsample
  obtain ⟨_, m, used, root, left, hmade, hleft, hkeeps, hsame⟩ := used_imports_left hstub
  obtain ⟨⟩ := hsettled.symm.trans hmade.firstPass
  obtain ⟨whole, hlines, houtline⟩ := hsame hsettled
  exact ⟨config, m, used, root, left, whole, hconfig, hstub, hmade, hleft, hkeeps,
    hsettled, hlines, houtline⟩

def quotedName : String := "from m import Foo\nx: \"'Foo'\"\n"

/-- A name that only the second pass takes out of its quotes is not in use before. -/
theorem used_import_lost_in_quotes : ∃ config, keepPublic.validate = .ok config ∧
    (generate config false samplePath quotedName.toList).outcome = .ok "x: Foo\n" := by
  have hlost : keepPublic.validate.toOption.any (fun config =>
      decide ((generate config false samplePath quotedName.toList).outcome = .ok "x: Foo\n"))
        = true := by decide +kernel
  simpa only [any_toOption_iff, decide_eq_true_eq] using hlost

end Stub

end TypeStub
