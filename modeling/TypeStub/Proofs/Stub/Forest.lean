import TypeStub.Proofs.Stub.Definitions
/-!
# What a stub is made of

`Sprout` says what the nodes are that stubbing puts below a parent, and `Forest` how they stand side
by side: an empty line behind each class and each function and nowhere else, and `elif` and `else`
behind a branch that they continue. Whatever stubbing returns is such a forest (`Grows.forest`), so
what holds of the nodes of a stub is shown by induction on it.
-/

namespace TypeStub

open TypeStub.Syntax StubM

namespace Syntax

def Stmt.isImport : Stmt → Bool
  | .imports .. | .importFrom .. => true
  | _ => false

def Stmt.aliases : Stmt → List Alias
  | .imports _ names => names
  | .importFrom _ _ names _ => names
  | _ => []

/-- The targets, the annotation and the value of an assignment, and whether its target is a plain
name. -/
structure Assignment where
  targets : List Expr
  simple : Bool
  annot : Option Expr
  value : Option Expr

def Stmt.assignment? : Stmt → Option Assignment
  | .assign _ targets value _ => some ⟨targets, true, none, some value⟩
  | .annAssign _ target annot value simple => some ⟨[target], simple, some annot, value⟩
  | _ => none

end Syntax

/-! ## Headers -/

/-- What a line is in the layout of a stub. -/
inductive LineRole
  | plain
  /-- An empty line behind a definition. -/
  | gap
  /-- The header of a class or a function. -/
  | definition
  | opening
  | elseIf
  | otherwise
  deriving DecidableEq, Repr

def LineRole.isHeader : LineRole → Bool
  | .plain | .gap => false
  | .definition | .opening | .elseIf | .otherwise => true

/-- Whether a line can be continued by `elif` or `else`. -/
def LineRole.isOpen (r : LineRole) : Bool :=
  r == .opening || r == .elseIf

/-- Whether a line continues an `if` statement. -/
def LineRole.isFurther (r : LineRole) : Bool :=
  r == .elseIf || r == .otherwise

def branchRole (line : String) : LineRole :=
  if "if ".toList.isPrefixOf line.toList then .opening
  else if "elif ".toList.isPrefixOf line.toList then .elseIf
  else .otherwise

theorem branchRole_if (condition : String) : branchRole ("if " ++ condition ++ ":") = .opening := by
  simp [branchRole]

theorem branchRole_elif (condition : String) :
    branchRole ("elif " ++ condition ++ ":") = .elseIf := by
  simp [branchRole]

namespace Node

def isBlock (n : Node) : Bool :=
  n.tags.contains .classDef || n.tags.contains .function || n.tags.contains .if

/-- A node of a stub that is no empty line: it has lines, and all of them show something unless they
are a documentation string. -/
structure Visible (n : Node) : Prop where
  spacer : n.isSpacer = false
  lines : n.lines ≠ []
  shown : n.tags.contains .docstring = false →
    ∀ line ∈ n.lines, ∃ c ∈ line.toList, Text.isSpace c.toNat = false

/-- Every node of several trees has a property that depends on the tags of the node above it. -/
def Each (Q : List Tag → Node → Prop) (parentTags : List Tag) (nodes : List Node) : Prop :=
  (∀ n ∈ nodes, Q parentTags n) ∧ ∀ p ∈ preorderAll nodes,
    ∀ n ∈ p.children, Q p.tags n

theorem Each.cons {Q : List Tag → Node → Prop} {parentTags n rest} (hn : Q parentTags n)
    (hchildren : Each Q n.tags n.children) (hrest : Each Q parentTags rest) :
    Each Q parentTags (n :: rest) := by
  refine ⟨List.forall_mem_cons.2 ⟨hn, hrest.1⟩, ?_⟩
  rw [preorderAll, preorder_eq]
  exact List.forall_mem_append.2 ⟨List.forall_mem_cons.2 ⟨hchildren.1, hchildren.2⟩,
    hrest.2⟩

end Node

namespace Session

def Part.parentTags : Part → List Tag
  | .stmt parentTags _ _ => parentTags
  | .block parentTags _ _ => parentTags
  | .orelse parentTags _ => parentTags

/-- Whether a part is the further branches of an `if` statement. -/
def Part.isFurther : Part → Bool
  | .stmt .. | .block .. => false
  | .orelse .. => true

variable {s : Session} {parentTags : List Tag} {last : Option (List Tag)} {nodes more : List Node}

/-! ## Nodes -/

/-- A node that stubbing puts below a parent with the given tags, whatever is inside of it. -/
inductive Sprout (s : Session) (parentTags : List Tag) : Node → Prop
  | imports {names line} {stmt : Stmt} : stmt.isImport = true → stmt.aliases ≠ [] →
      (s.keptAliases parentTags names).outcome = .ok stmt.aliases → stmt.render = .ok line →
      Sprout s parentTags (.leaf .imports line)
  | assignment {a text annotText valueText keep shown} {stmt : Stmt} : stmt.assignment? = some a →
      (targetsText a.targets a.simple).outcome = .ok text → '.' ∉ text.toList →
      (s.optionType a.annot).outcome = .ok annotText →
      (optionLine a.value).outcome = .ok valueText →
      (s.shownValue keep (variableName text) valueText).outcome = .ok shown →
      s.config.keepDefinitions.Holds (s.variableContext parentTags text annotText valueText) →
      Sprout s parentTags { tags := (s.variableContext parentTags text annotText valueText).tags,
                            lines := [text ++ (annotText.elim "" (": " ++ ·)) ++ shown],
                            children := [] }
  | docstring {text} : Sprout s parentTags (.leaf .docstring text)
  | ellipsis : Sprout s parentTags .ellipsis
  | classDef {head decorators line children} :
      s.config.keepDefinitions.Holds (s.definitionContext parentTags .classDef head.name) →
      (decoratorLines head.decorators).outcome = .ok decorators →
      (classLine head).outcome = .ok line →
      Sprout s parentTags { tags := [.classDef], lines := decorators ++ [line], children }
  | functionDef {head decorators line children} :
      s.config.keepDefinitions.Holds (s.definitionContext parentTags .function head.name) →
      (decoratorLines head.decorators).outcome = .ok decorators →
      (s.functionLine parentTags head).outcome = .ok line →
      Sprout s parentTags { tags := [.function], lines := decorators ++ [line], children }
  | branch {line children} : ':' ∈ line.toList →
      Sprout s parentTags { tags := [.if], lines := [line], children }
  | spacer : Sprout s parentTags .spacer

theorem shows_colon {line : String} (h : ':' ∈ line.toList) :
    ∃ c ∈ line.toList, Text.isSpace c.toNat = false :=
  ⟨':', h, rfl⟩

theorem decoratorLines_shown {ds lines} (hds : (decoratorLines ds).outcome = .ok lines) :
    ∀ line ∈ lines, ∃ c ∈ line.toList, Text.isSpace c.toNat = false := by
  unfold decoratorLines at hds
  obtain ⟨texts, -, h⟩ := outcome_bind_ok.1 hds
  clear hds
  induction texts generalizing lines with
  | nil =>
    cases h
    simp
  | cons t texts ih =>
    rw [List.mapM_cons] at h
    obtain ⟨line, hline, h⟩ := outcome_bind_ok.1 h
    obtain ⟨_, rfl⟩ := oneLine_ok.1 hline
    obtain ⟨more, hmore, h⟩ := outcome_bind_ok.1 h
    cases h
    exact List.forall_mem_cons.2 ⟨⟨'@', by simp, rfl⟩, ih hmore⟩

theorem classLine_shown {head line} (h : (classLine head).outcome = .ok line) :
    ':' ∈ line.toList := by
  unfold classLine at h
  obtain ⟨bases, _, h⟩ := outcome_bind_ok.1 h
  obtain ⟨keywords, _, h⟩ := outcome_bind_ok.1 h
  obtain ⟨_, rfl⟩ := oneLine_ok.1 h
  simp

theorem functionLine_shown {head line} (h : (s.functionLine parentTags head).outcome = .ok line) :
    ':' ∈ line.toList := by
  unfold functionLine at h
  obtain ⟨params, _, h⟩ := outcome_bind_ok.1 h
  obtain ⟨returns, _, h⟩ := outcome_bind_ok.1 h
  obtain ⟨_, rfl⟩ := oneLine_ok.1 h
  simp

/-- The line of an assignment has a colon or an equals sign: one of them stands in front of its type
or its value. -/
theorem assignLine_shown {stmt a annotText valueText keep name shown} (text : String)
    (ha : Stmt.assignment? stmt = some a) (hannot : (s.optionType a.annot).outcome = .ok annotText)
    (hvalue : (optionLine a.value).outcome = .ok valueText)
    (hshown : (s.shownValue keep name valueText).outcome = .ok shown) :
    ∃ c ∈ (text ++ (annotText.elim "" (": " ++ ·)) ++ shown).toList,
      Text.isSpace c.toNat = false := by
  cases stmt with
  | annAssign =>
    cases ha
    rw [optionType, map_eq_pure_bind] at hannot
    obtain ⟨t, _, h⟩ := outcome_bind_ok.1 hannot
    cases h
    exact shows_colon (by simp)
  | assign =>
    cases ha
    rw [optionLine, map_eq_pure_bind] at hvalue
    obtain ⟨t, _, h⟩ := outcome_bind_ok.1 hvalue
    cases h
    refine ⟨'=', ?_, rfl⟩
    rw [shownValue] at hshown
    split at hshown
    · cases hshown
      simp
    · rw [outcome_bind_of_ok (sayPruned_outcome ..)] at hshown
      cases hshown
      simp
  | _ => cases ha

theorem import_shown {stmt : Stmt} {line} (himport : stmt.isImport = true)
    (hline : stmt.render = .ok line) : ∃ c ∈ line.toList, Text.isSpace c.toNat = false := by
  refine ⟨'m', ?_, rfl⟩
  cases stmt with
  | imports | importFrom =>
    simp only [Stmt.render, Stmt.lines] at hline
    cases hline
    simp [indented, Text.join]
  | _ => cases himport

theorem visible_single {n : Node} {line} (hspacer : n.isSpacer = false) (hline : n.lines = [line])
    (hshown : n.tags.contains .docstring = false →
      ∃ c ∈ line.toList, Text.isSpace c.toNat = false) : n.Visible := by
  refine ⟨hspacer, by simp [hline], fun hdoc => ?_⟩
  rw [hline, List.forall_mem_singleton]
  exact hshown hdoc

theorem visible_definition {tag ds decorators children} {line : String}
    (htag : tag = .classDef ∨ tag = .function)
    (hds : (decoratorLines ds).outcome = .ok decorators) (hline : ':' ∈ line.toList) :
    Node.Visible { tags := [tag], lines := decorators ++ [line], children } := by
  have hshown : ∀ l ∈ decorators ++ [line], ∃ c ∈ l.toList,
      Text.isSpace c.toNat = false := by
    rw [List.forall_mem_append, List.forall_mem_singleton]
    exact ⟨decoratorLines_shown hds, shows_colon hline⟩
  obtain rfl | rfl := htag <;> exact ⟨rfl, by simp, fun _ => hshown⟩

theorem Sprout.visible {n} (h : s.Sprout parentTags n) (hspacer : n.isSpacer = false) :
    n.Visible := by
  cases h with
  | imports himport _ _ hline =>
    exact visible_single hspacer rfl fun _ => import_shown himport hline
  | assignment ha _ _ hannot hvalue hshown _ =>
    exact visible_single hspacer rfl fun _ => assignLine_shown _ ha hannot hvalue hshown
  | docstring => exact visible_single hspacer rfl nofun
  | ellipsis => exact visible_single hspacer rfl fun _ => ⟨'.', by simp, rfl⟩
  | classDef _ hds hline => exact visible_definition (.inl rfl) hds (classLine_shown hline)
  | functionDef _ hds hline => exact visible_definition (.inr rfl) hds (functionLine_shown hline)
  | branch hline => exact visible_single hspacer rfl fun _ => shows_colon hline
  | spacer => cases hspacer

/-! ## Nodes side by side -/

/-- Nodes side by side below a parent with the given tags. If a branch stands in front of them that
can be continued, then they may be `further` branches. -/
inductive Forest (s : Session) : (parentTags : List Tag) → (further : Bool) → List Node → Prop
  | nil {parentTags further} : Forest s parentTags further []
  | leaf {parentTags further n rest} : s.Sprout parentTags n → n.isSpacer = false →
      n.isBlock = false → n.children = [] → Forest s parentTags false rest →
      Forest s parentTags further (n :: rest)
  | definition {parentTags further tag lines children rest} :
      s.Sprout parentTags { tags := [tag], lines, children } → tag = .classDef ∨
      tag = .function →
      children ≠ [] → Forest s [tag] false children → Forest s parentTags false rest →
      Forest s parentTags further ({ tags := [tag], lines, children } :: .spacer :: rest)
  | branch {parentTags further line children rest} : ':' ∈ line.toList →
      ((branchRole line).isFurther = true → further = true) → children ≠ [] →
      Forest s [.if] false children → Forest s parentTags (branchRole line).isOpen rest →
      Forest s parentTags further ({ tags := [.if], lines := [line], children } :: rest)

namespace Forest

variable {further : Bool}

theorem anywhere (h : s.Forest parentTags false nodes) : s.Forest parentTags further nodes := by
  cases h with
  | nil => exact .nil
  | leaf hn hspacer hblock hchildren hrest => exact .leaf hn hspacer hblock hchildren hrest
  | definition hn htags hne hchildren hrest => exact .definition hn htags hne hchildren hrest
  | branch hline hfurther hne hchildren hrest =>
    exact .branch hline (fun h => nomatch hfurther h) hne hchildren hrest

theorem append (h : s.Forest parentTags further nodes) (hmore : s.Forest parentTags false more) :
    s.Forest parentTags further (nodes ++ more) := by
  induction h with
  | nil => exact hmore.anywhere
  | leaf hn hspacer hblock hchildren _ ih => exact .leaf hn hspacer hblock hchildren (ih hmore)
  | definition hn htags hne hchildren _ _ ih => exact .definition hn htags hne hchildren (ih hmore)
  | branch hline hfurther hne hchildren _ _ ih =>
    exact .branch hline hfurther hne hchildren (ih hmore)

/-- Every node is one that stubbing puts below the node above it. -/
theorem each (h : s.Forest parentTags further nodes) : Node.Each s.Sprout parentTags nodes := by
  induction h with
  | nil => exact ⟨nofun, nofun⟩
  | leaf hn _ _ hchildren _ ih => exact .cons hn (hchildren ▸ ⟨nofun, nofun⟩) ih
  | definition hn _ _ _ _ ihchildren ih =>
    exact .cons hn ihchildren (.cons .spacer ⟨nofun, nofun⟩ ih)
  | branch hline _ _ _ _ ihchildren ih => exact .cons (.branch hline) ihchildren ih

end Forest

/-! ## What stubbing returns -/

theorem withEllipsis_forest {tags name inside inner} (hinner : s.Forest inside false inner)
    (h : (s.withEllipsis parentTags tags name inner).outcome = .ok nodes) :
    nodes ≠ [] ∧ s.Forest inside false nodes := by
  have hmark : s.Forest inside false [Node.ellipsis] := .leaf .ellipsis rfl rfl rfl .nil
  obtain ⟨_, rfl⟩ | ⟨hne, rfl | rfl⟩ := withEllipsis_ok h
  · exact ⟨List.cons_ne_nil _ _, hmark⟩
  · exact ⟨hne, hinner⟩
  · exact ⟨List.append_ne_nil_of_left_ne_nil hne _, hinner.append hmark⟩

theorem stubImport_forest {names} {remade : List Alias → Stmt}
    (hremade : ∀ kept, (remade kept).isImport = true ∧ (remade kept).aliases = kept)
    (h : (s.stubImport parentTags names remade).outcome = .ok nodes) :
    s.Forest parentTags false nodes := by
  obtain ⟨kept, hkept, ⟨_, rfl⟩ | ⟨hne, line, hline, _, rfl⟩⟩ := stubImport_ok h
  · exact .nil
  · obtain ⟨himport, haliases⟩ := hremade kept
    rw [← haliases] at hkept hne
    exact .leaf (.imports himport hne hkept hline) rfl rfl rfl .nil

theorem stubAssign_forest (stmt : Stmt) {a} (ha : stmt.assignment? = some a)
    (h : (s.stubAssign parentTags a.targets a.simple a.annot a.value).outcome = .ok nodes) :
    s.Forest parentTags false nodes := by
  obtain ⟨text, htext, ⟨_, rfl⟩ | ⟨hdot, annotText, valueText, shown, hannot, hvalue,
    ⟨keep, hshown⟩, ⟨_, rfl⟩ | ⟨hkeep, rfl⟩⟩⟩ := stubAssign_ok h
  · exact .nil
  · exact .nil
  · refine .leaf (.assignment ha htext hdot hannot hvalue hshown hkeep) ?_ ?_ rfl .nil <;>
      cases annotText <;> cases valueText <;> rfl

theorem DocOf.forest {tags last span} (h : s.DocOf tags last span nodes) :
    s.Forest parentTags false nodes := by
  obtain ⟨-, rfl⟩ | ⟨-, _, -, rfl⟩ := h
  · exact .nil
  · exact .leaf .docstring rfl rfl rfl .nil

theorem stubFunction_forest {head body}
    (h : (s.stubFunction parentTags head body).outcome = .ok nodes) :
    s.Forest parentTags false nodes := by
  obtain ⟨_, rfl⟩ | ⟨hkeep, decorators, line, doc, children, hds, hline, hdoc,
    hchildren, rfl⟩ :=
    stubFunction_ok h
  · exact .nil
  · have hinner : s.Forest [.function] false doc := by
      obtain rfl | ⟨_, _, _, -, -, hdoc⟩ := functionDoc_ok hdoc
      · exact .nil
      · exact hdoc.forest
    obtain ⟨hne, hinside⟩ := withEllipsis_forest hinner hchildren
    exact .definition (.functionDef hkeep hds hline) (.inr rfl) hne
      hinside .nil

theorem Grows.forest {part} (h : s.Grows part nodes) :
    s.Forest part.parentTags part.isFurther nodes := by
  induction h with
  | imports h => exact stubImport_forest (fun kept => ⟨rfl, rfl⟩) h
  | importFrom h => exact stubImport_forest (fun kept => ⟨rfl, rfl⟩) h
  | @assign _ _ span targets value comment _ h =>
    exact stubAssign_forest (.assign span targets value comment) rfl h
  | @annAssign _ _ span target annot value simple _ h =>
    exact stubAssign_forest (.annAssign span target annot value simple) rfl h
  | functionDef h => exact stubFunction_forest h
  | string _ h => exact (stubString_ok h).forest
  | classPruned | skipped | ifDropped | nil | noBranch => exact .nil
  | classDef hkeep hds hline _ hchildren ih =>
    obtain ⟨hne, hinside⟩ := withEllipsis_forest ih hchildren
    exact .definition (.classDef hkeep hds hline) (.inl rfl) hne hinside .nil
  | ifFlattened _ _ _ _ ih | tryBlock _ ih | withBlock _ ih => exact ih
  | ifKept _ _ _ _ hchildren _ ihbody ihelse =>
    obtain ⟨hne, hinside⟩ := withEllipsis_forest ihbody hchildren
    exact .branch (by simp) (by simp [branchRole_if, LineRole.isFurther]) hne hinside
      (by rwa [branchRole_if])
  | ifKeptFlattened _ _ _ _ hchildren _ ihbody ihelse =>
    obtain ⟨hne, hinside⟩ := withEllipsis_forest .nil hchildren
    exact ihbody.append (.branch (by simp) (by simp [branchRole_if, LineRole.isFurther]) hne hinside
      (by rwa [branchRole_if]))
  | cons _ _ ihstmt ihrest => exact ihstmt.append ihrest
  | elif _ _ hchildren _ ihbody ihelse =>
    obtain ⟨hne, hinside⟩ := withEllipsis_forest ihbody hchildren
    exact .branch (by simp) (fun _ => rfl) hne hinside (by rwa [branchRole_elif])
  | orelse _ _ hchildren ih =>
    obtain ⟨hne, hinside⟩ := withEllipsis_forest ih hchildren
    exact .branch (by simp) (fun _ => rfl) hne hinside .nil

end Session

end TypeStub
