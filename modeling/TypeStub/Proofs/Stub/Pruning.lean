import TypeStub.Proofs.Stub.Forest
import TypeStub.Proofs.Stub.Noninterference
/-!
# Which imports are left

The second pass over a module leaves out imports of names that nothing needs. `Uses` says when a
statement needs a name, and the names that are looked up are exactly these (`mem_usedNames`). So
an import in a stub is one of all names, one that passes its name on, one of a name that is used, or
one that the filter for unused imports matches where it stands; unless nothing was looked up at all,
since the filter matches at the top of the module, or since there are imports only
(`imports_justified`).
-/

namespace TypeStub

open TypeStub.Syntax StubM

namespace Syntax

def Expr.elements : Expr → List Expr
  | .list _ elts => elts
  | .tuple _ elts => elts
  | _ => []

end Syntax

namespace Source

/-! ## Names in use -/

/-- A statement needs a name: the name occurs in it, or it is listed in `__all__`, or it occurs in a
type that an alias stands for, of which parts may be quoted. -/
inductive Uses (s : Source) (stmt : Stmt) (name : String) : Prop
  | occurs : stmt.isImport = false → name ∈ stmt.names → Uses s stmt name
  | listed {a value span points marked} :
      stmt.assignment? = some a → (Session.targetsText a.targets a.simple).outcome
      = .ok "__all__" →
      a.value = some value → .constant span (.str points marked) ∈ value.elements →
      Text.ofPoints? points = some name.toList → Uses s stmt name
  | aliased {a annot value e type} :
      stmt.assignment? = some a → a.annot = some annot → annot.render = .ok "TypeAlias" →
      a.value = some value → (s.typeText value).outcome = .ok type →
      s.readExpr type.toList = .ok e → name ∈ e.names → Uses s stmt name

variable {s : Source} {stmt : Stmt} {name : String} {names : List String}

theorem mem_listedNames {elts} (h : (listedNames elts).outcome = .ok names) :
    name ∈ names ↔ ∃ span points marked, Expr.constant span (.str points marked) ∈ elts ∧
      Text.ofPoints? points = some name.toList := by
  fun_induction listedNames elts generalizing names with
  | case1 =>
    cases h
    simp
  | case2 span points marked rest ih =>
    obtain ⟨more, hmore, h⟩ := outcome_bind_ok.1 h
    cases h
    have hfirst : name ∈ (Text.ofPoints? points).toList.map String.ofList ↔
        Text.ofPoints? points = some name.toList := by
      cases Text.ofPoints? points with
      | none => simp
      | some chars => simp [String.ext_iff, eq_comm]
    rw [List.mem_append, hfirst, ih hmore]
    constructor
    · rintro (hpoints | ⟨span', points', marked', hmem, hpoints⟩)
      · exact ⟨span, points, marked, List.mem_cons_self, hpoints⟩
      · exact ⟨span', points', marked', List.mem_cons_of_mem _ hmem, hpoints⟩
    · rintro ⟨span', points', marked', hmem, hpoints⟩
      obtain heq | hmem := List.mem_cons.1 hmem
      · cases heq
        exact .inl hpoints
      · exact .inr ⟨span', points', marked', hmem, hpoints⟩
  | case3 e rest hnot ih =>
    obtain ⟨_, _, h⟩ := outcome_bind_ok.1 h
    rw [outcome_bind_of_ok (sayUnexpected_outcome _)] at h
    rw [ih h]
    constructor
    · rintro ⟨span, points, marked, hmem, hpoints⟩
      exact ⟨span, points, marked, List.mem_cons_of_mem _ hmem, hpoints⟩
    · rintro ⟨span, points, marked, hmem, hpoints⟩
      obtain rfl | hmem := List.mem_cons.1 hmem
      · exact absurd rfl (hnot span points marked)
      · exact ⟨span, points, marked, hmem, hpoints⟩

theorem mem_exportedNames {value} (h : (exportedNames value).outcome = .ok names) :
    name ∈ names ↔ ∃ e span points marked, value = some e ∧
      Expr.constant span (.str points marked) ∈ e.elements ∧
      Text.ofPoints? points = some name.toList := by
  unfold exportedNames at h
  split at h
  iterate 2
    · rw [mem_listedNames h]
      simp [Expr.elements]
  · next e hlist htuple =>
    obtain ⟨_, _, h⟩ := outcome_bind_ok.1 h
    rw [outcome_bind_of_ok (sayUnexpected_outcome _)] at h
    cases h
    have helements : e.elements = [] := by
      unfold Expr.elements
      split
      · exact absurd rfl (hlist _ _)
      · exact absurd rfl (htuple _ _)
      · rfl
    simp [helements]
  · rw [outcome_bind_of_ok (sayUnexpected_outcome _)] at h
    cases h
    simp

theorem mem_aliasNames {annot value} (h : (s.aliasNames annot value).outcome = .ok names) :
    name ∈ names ↔ ∃ annot' value' type e, annot = some annot' ∧ value = some value' ∧
      annot'.render = .ok "TypeAlias" ∧ (s.typeText value').outcome = .ok type ∧
      s.readExpr type.toList = .ok e ∧ name ∈ e.names := by
  unfold aliasNames at h
  split at h
  · next annot' value' =>
    obtain ⟨text, htext, h⟩ := outcome_bind_ok.1 h
    have hrender := exprLine_ok.1 htext
    split at h
    · next heq =>
      obtain rfl := beq_iff_eq.1 heq
      obtain ⟨type, htype, h⟩ := outcome_bind_ok.1 h
      obtain ⟨e, he, h⟩ := outcome_bind_ok.1 h
      cases h
      have hread := ofResult_ok.1 he
      constructor
      · intro hname
        exact ⟨annot', value', type, e, rfl, rfl, hrender, htype, hread, hname⟩
      · rintro ⟨_, _, type', e', ⟨⟩, ⟨⟩, _, htype', hread', hname⟩
        obtain rfl := Except.ok.inj (htype.symm.trans htype')
        obtain rfl := Except.ok.inj (hread.symm.trans hread')
        exact hname
    · next hne =>
      cases h
      constructor
      · intro hname
        cases hname
      · rintro ⟨_, _, _, _, ⟨⟩, _, hrender', _⟩
        obtain rfl := Except.ok.inj (hrender.symm.trans hrender')
        exact absurd rfl hne
  · next hnot =>
    cases h
    constructor
    · intro hname
      cases hname
    · rintro ⟨annot', value', _, _, rfl, rfl, _⟩
      exact absurd rfl (hnot annot' value' rfl)

theorem mem_assignmentNames {a} (ha : stmt.assignment? = some a) (hnot : stmt.isImport = false)
    (h : (s.assignmentNames a.targets a.simple a.annot a.value).outcome = .ok names) :
    name ∈ stmt.names ++ names ↔ s.Uses stmt name := by
  unfold assignmentNames at h
  obtain ⟨inAlias, halias, h⟩ := outcome_bind_ok.1 h
  obtain ⟨target, htarget, h⟩ := outcome_bind_ok.1 h
  obtain ⟨exported, hlisted, rfl⟩ : ∃ exported, (name ∈ exported ↔ target = "__all__" ∧
      ∃ e span points marked, a.value = some e ∧
        Expr.constant span (.str points marked) ∈ e.elements ∧
        Text.ofPoints? points = some name.toList) ∧ names = inAlias ++ exported := by
    dsimp only at h
    split at h
    · next heq =>
      obtain ⟨exported, hexported, h⟩ := outcome_bind_ok.1 h
      refine ⟨exported, ?_, (Except.ok.inj h).symm⟩
      rw [mem_exportedNames hexported, and_iff_right (beq_iff_eq.1 heq)]
    · next hne =>
      refine ⟨[], iff_of_false nofun ?_, (Except.ok.inj h).symm⟩
      rintro ⟨rfl, _⟩
      exact absurd (beq_self_eq_true _) hne
  rw [List.mem_append, List.mem_append, mem_aliasNames halias, hlisted]
  constructor
  · rintro (hname | ⟨annot, value, type, e, hannot, hvalue, hrender, htype, hread, hname⟩ |
      ⟨rfl, e, span, points, marked, hvalue, hmem, hpoints⟩)
    · exact .occurs hnot hname
    · exact .aliased ha hannot hrender hvalue htype hread hname
    · exact .listed ha htarget hvalue hmem hpoints
  · rintro (⟨_, hname⟩ | ⟨ha', htarget', hvalue, hmem, hpoints⟩ |
      ⟨ha', hannot, hrender, hvalue, htype, hread, hname⟩)
    · exact .inl hname
    · obtain rfl := Option.some.inj (ha.symm.trans ha')
      obtain rfl := Except.ok.inj (htarget.symm.trans htarget')
      exact .inr (.inr ⟨rfl, _, _, _, _, hvalue, hmem, hpoints⟩)
    · obtain rfl := Option.some.inj (ha.symm.trans ha')
      exact .inr (.inl ⟨_, _, _, _, hannot, hvalue, hrender, htype, hread, hname⟩)

theorem Uses.occurs_of_none (h : s.Uses stmt name) (hnone : stmt.assignment? = none) :
    stmt.isImport = false ∧ name ∈ stmt.names := by
  obtain ⟨hnot, hname⟩ | ⟨ha, _⟩ | ⟨ha, _⟩ := h
  · exact ⟨hnot, hname⟩
  all_goals cases hnone.symm.trans ha

theorem neededNames_ok {needed} (h : (s.neededNames stmt).outcome = .ok needed) :
    (stmt.isImport = true ∧ needed = none) ∨
      (stmt.isImport = false ∧ ∃ names, needed = some names ∧
        ∀ name, name ∈ names ↔ s.Uses stmt name) := by
  have hother : ∀ stmt : Stmt, stmt.isImport = false → stmt.assignment? = none →
      ∀ name, name ∈ stmt.names ↔ s.Uses stmt name :=
    fun _ hnot hnone _ => ⟨.occurs hnot, fun h => (h.occurs_of_none hnone).2⟩
  cases stmt with
  | imports | importFrom =>
    cases h
    exact .inl ⟨rfl, rfl⟩
  | assign | annAssign =>
    obtain ⟨more, hmore, h⟩ := outcome_bind_ok.1 h
    cases h
    exact .inr ⟨rfl, _, rfl, fun name => mem_assignmentNames rfl rfl hmore⟩
  | _ =>
    cases h
    exact .inr ⟨rfl, _, rfl, hother _ rfl rfl⟩

theorem not_uses_import (h : stmt.isImport = true) : ¬ s.Uses stmt name := by
  have hnone : stmt.assignment? = none := by
    unfold Stmt.isImport at h
    split at h
    · rfl
    · rfl
    · cases h
  intro huses
  cases h.symm.trans (huses.occurs_of_none hnone).1

theorem usedNames_ok {used result stmts} (h : (s.usedNames used stmts).outcome = .ok result) :
    (result = none ↔ used = none ∧ ∀ stmt ∈ stmts, stmt.isImport = true) ∧
      ∀ name, name ∈ result.getD [] ↔ name ∈ used.getD [] ∨ ∃ stmt ∈ stmts,
      s.Uses stmt name := by
  induction stmts generalizing used with
  | nil =>
    cases h
    simp
  | cons stmt rest ih =>
    rw [usedNames] at h
    obtain ⟨needed, hneeded, h⟩ :=
      (@outcome_bind_ok _ _ _ _ (fun needed => by split <;> infer_instance) _).1 h
    obtain ⟨himport, rfl⟩ | ⟨hnot, names, rfl, hnames⟩ := neededNames_ok hneeded
    · obtain ⟨hnone, hmem⟩ := ih h
      refine ⟨?_, fun name => ?_⟩
      · rw [hnone, List.forall_mem_cons, himport, and_iff_right rfl]
      · simp [hmem, not_uses_import himport]
    · obtain ⟨hnone, hmem⟩ := ih h
      refine ⟨?_, fun name => ?_⟩
      · rw [hnone, List.forall_mem_cons, hnot]
        simp
      · rw [hmem]
        simp [hnames, or_assoc]

end Source

/-! ## Imports in a tree -/

namespace Session

variable {s : Session} {parentTags : List Tag} {last : Option (List Tag)} {nodes : List Node}

/-- An import is kept below a parent with the given tags: no names were looked up, or the filter for
unused imports matches there, or it is needed for a name that was found. -/
def KeepsAlias (s : Session) (parentTags : List Tag) (a : Alias) : Prop :=
  s.used = none ∨ s.config.keepUnusedImports.Holds (s.context parentTags [.imports]) ∨
    ∃ used, s.used = some used ∧ a.isNeeded used = true

/-- A node is that of an import statement, each part of which is kept. -/
def ShowsImport (s : Session) (parentTags : List Tag) (n : Node) : Prop :=
  ∃ (stmt : Stmt) (line : String), stmt.isImport = true ∧ stmt.aliases ≠ [] ∧
    stmt.render = .ok line ∧ n.lines = [line] ∧ ∀ a ∈ stmt.aliases,
    s.KeepsAlias parentTags a

theorem keptAliases_cases {names kept} (h : (s.keptAliases parentTags names).outcome = .ok kept) :
    (s.used = none ∧ kept = names) ∨ ∃ used keep, s.used = some used ∧
      (isMatch s.config.keepUnusedImports (s.context parentTags [.imports])).outcome = .ok keep ∧
      kept = if keep then names else names.filter (Alias.isNeeded used) := by
  cases hused : s.used with
  | none =>
    simp only [keptAliases, hused] at h
    obtain ⟨_, _, h⟩ := outcome_bind_ok.1 h
    cases h
    exact .inl ⟨rfl, rfl⟩
  | some used =>
    simp only [keptAliases, hused] at h
    obtain ⟨keep, hkeep, h⟩ := outcome_bind_ok.1 h
    cases h
    exact .inr ⟨used, keep, rfl, hkeep, rfl⟩

theorem keptAliases_ok {names kept} (h : (s.keptAliases parentTags names).outcome = .ok kept) :
    ∀ a ∈ kept, s.KeepsAlias parentTags a := by
  intro a ha
  obtain ⟨hnone, -⟩ | ⟨used, keep, hused, hkeep, rfl⟩ := keptAliases_cases h
  · exact .inl hnone
  · cases keep with
    | true => exact .inr (.inl (isMatch_ok.1 hkeep))
    | false => exact .inr (.inr ⟨used, hused, (List.mem_filter.1 ha).2⟩)

theorem Sprout.showsImport {n} (h : s.Sprout parentTags n) (hn : .imports ∈ n.tags) :
    s.ShowsImport parentTags n := by
  cases h with
  | imports himport hne hkept hline =>
    exact ⟨_, _, himport, hne, hline, rfl, keptAliases_ok hkept⟩
  | @assignment _ _ annotText valueText =>
    cases annotText <;> cases valueText <;> simp [variableContext, context] at hn
  | _ => simp [Node.leaf, Node.ellipsis, Node.spacer] at hn

/-- In nodes that come about by the rules every import is kept for what stands above it. -/
theorem Grows.eachImport {part} (h : s.Grows part nodes) :
    Node.Each (fun parentTags n => .imports ∈ n.tags →
    s.ShowsImport parentTags n) part.parentTags
      nodes :=
  ⟨fun n hn => (h.forest.each.1 n hn).showsImport,
    fun p hp n hn => (h.forest.each.2 p hp n hn).showsImport⟩

end Session

namespace Stub

variable {config : ValidConfig} {debug : Bool} {path : Path} {text : List Char} {out : String}

/-! ## What is left -/

/-- Why an import is left in the stub of a module below a parent with the given tags: it imports all
names, it passes its name on, a statement uses the name, or the filter for unused imports matches
it. -/
inductive Justified (config : ValidConfig) (source : Source) (m : Module) (parentTags : List Tag)
    (a : Alias) : Prop
  | star : a.boundName = "*" → Justified config source m parentTags a
  | exported : a.isExport = true → Justified config source m parentTags a
  | used {stmt} : stmt ∈ m.body → source.Uses stmt a.boundName →
      Justified config source m parentTags a
  | matched : config.keepUnusedImports.Holds
      { parentTags, tags := [.imports], filePath := source.path } →
      Justified config source m parentTags a

/-- Names in use are looked up: the filter for unused imports does not match at the top of a module,
and there is something else than imports. -/
def LooksUp (config : ValidConfig) (path : Path) (m : Module) : Prop :=
  config.keepUnusedImports.isMatch (importContext path) = .ok false ∧
    ∃ stmt ∈ m.body, stmt.isImport = false

/-- How a stub is made: the text between the passes is read as a module, and the stub has the lines
of the tree of this module. -/
structure Made (config : ValidConfig) (debug : Bool) (path : Path) (text : List Char)
    (between : String) (m : Module) (used : Option (List String)) (root : Node) (out : String) :
    Prop where
  firstPass :
    (pass config debug (sourceOf config path text) none false).outcome = .ok (between, none)
  read : (sourceOf config path between.toList).readModule = .ok m
  tree :
    (Session.stubModule ⟨sourceOf config path between.toList, config, debug, used⟩ m).outcome
    = .ok root
  lines : out = root.text
  lookedUp : LooksUp config path m → ∃ names, used = some names ∧
    ∀ name, name ∈ names ↔ ∃ stmt ∈ m.body,
    (sourceOf config path between.toList).Uses stmt name

theorem generate_made (h : (generate config debug path text).outcome = .ok out) :
    ∃ between m used root, Made config debug path text between m used root out ∧
      (LooksUp config path m ∨ used = none) := by
  unfold generate at h
  obtain ⟨⟨between, none'⟩, hfirst, h⟩ := outcome_bind_ok.1 h
  obtain ⟨keepAll, hkeep, h⟩ := outcome_bind_ok.1 h
  obtain ⟨⟨_, used⟩, hsecond, h⟩ := outcome_bind_ok.1 h
  cases h
  obtain ⟨_, _, _, hnone, _⟩ := pass_ok hfirst
  cases hnone
  obtain ⟨m, root, hread, hused, hroot, hlines⟩ := pass_ok hsecond
  have hkeep := Session.isMatch_ok.1 hkeep
  refine ⟨between, m, used, root, ⟨hfirst, hread, hroot, hlines, ?_⟩, ?_⟩
  · rintro ⟨hnot, hothers⟩
    obtain rfl := Except.ok.inj (hkeep.symm.trans hnot)
    obtain ⟨hempty, hnames⟩ := Source.usedNames_ok hused
    obtain rfl | ⟨names, rfl⟩ := Option.eq_none_or_eq_some used
    · obtain ⟨stmt, hstmt, himport⟩ := hothers
      rw [(hempty.1 rfl).2 stmt hstmt] at himport
      cases himport
    · exact ⟨names, rfl, fun name => by simpa using hnames name⟩
  · cases keepAll with
    | true => exact .inr (Except.ok.inj hused).symm
    | false =>
      by_cases hothers : ∃ stmt ∈ m.body, stmt.isImport = false
      · exact .inl ⟨hkeep, hothers⟩
      · exact .inr ((Source.usedNames_ok hused).1.2 ⟨rfl, by simpa using hothers⟩)

/-- **No import is left without a reason.** If names in use are looked up, then each import in the
tree of a stub is justified where it stands. -/
theorem imports_justified (h : (generate config debug path text).outcome = .ok out) :
    ∃ between m used root, Made config debug path text between m used root out ∧
      (LooksUp config path m → ∀ p ∈ root.preorder, ∀ n ∈ p.children,
      .imports ∈ n.tags →
        ∃ (stmt : Stmt) (line : String), stmt.isImport = true ∧ stmt.aliases ≠ [] ∧
          stmt.render = .ok line ∧ n.lines = [line] ∧ ∀ a ∈ stmt.aliases,
            Justified config (sourceOf config path between.toList) m p.tags a) := by
  obtain ⟨between, m, used, root, hmade, -⟩ := generate_made h
  refine ⟨between, m, used, root, hmade, ?_⟩
  intro hlooks p hp n hn himport
  obtain ⟨names, rfl, hnames⟩ := hmade.lookedUp hlooks
  obtain ⟨children, hgrows, rfl⟩ := Session.stubModule_grows hmade.tree
  rw [Node.preorder_eq] at hp
  have hkept :=
    List.forall_mem_cons.2 ⟨hgrows.eachImport.1, hgrows.eachImport.2⟩ p hp n hn himport
  obtain ⟨stmt, line, hstmt, hne, hline, hlines, hall⟩ := hkept
  refine ⟨stmt, line, hstmt, hne, hline, hlines, fun a ha => ?_⟩
  obtain hnone | hmatch | ⟨used, hused, hneeded⟩ := hall a ha
  · cases hnone
  · exact .matched hmatch
  · cases hused
    simp only [Alias.isNeeded, Bool.or_eq_true, beq_iff_eq, List.contains_eq_mem,
      decide_eq_true_eq] at hneeded
    obtain (hstar | hmem) | hexport := hneeded
    · exact .star hstar
    · obtain ⟨stmt, hstmt, huses⟩ := (hnames _).1 hmem
      exact .used hstmt huses
    · exact .exported hexport

/-! ## Samples -/

def importsSample : String := "import a\nfrom b import c as c\nimport d.e\nx: d.T\n"

def importsStub : String := "from b import c as c\nimport d.e\nx: d.T\n"

theorem imports_justified_on_sample : ∃ config m used root, keepPublic.validate = .ok config ∧
      (generate config false samplePath importsSample.toList).outcome = .ok importsStub ∧
      Made config false samplePath importsSample.toList importsSample m used root importsStub ∧
      LooksUp config samplePath m ∧ ∀ p ∈ root.preorder, ∀ n ∈ p.children,
      .imports ∈ n.tags →
        ∃ (stmt : Stmt) (line : String), stmt.isImport = true ∧ stmt.aliases ≠ [] ∧
          stmt.render = .ok line ∧ n.lines = [line] ∧ ∀ a ∈ stmt.aliases,
            Justified config (sampleUnder config importsSample) m p.tags a := by
  have hsample : keepPublic.validate.toOption.any (fun config =>
      (sampleUnder config importsSample).readModule.toOption.any fun m =>
        decide ((generate config false samplePath importsSample.toList).outcome = .ok importsStub)
        && decide ((pass config false (sampleUnder config importsSample) none false).outcome
          = .ok (importsSample, none))
        && decide (config.keepUnusedImports.isMatch (importContext samplePath) = .ok false)
        && m.body.any fun stmt => !stmt.isImport) = true := by decide +kernel
  simp only [any_toOption_iff, Bool.and_eq_true, decide_eq_true_eq, List.any_eq_true,
    Bool.not_eq_true'] at hsample
  obtain ⟨config, hconfig, m, hm, ⟨⟨hstub, hpass⟩, hkeep⟩, hothers⟩ := hsample
  obtain ⟨between, m', used, root, hmade, hall⟩ := imports_justified hstub
  obtain ⟨rfl, _⟩ := Prod.mk.inj (Except.ok.inj (hpass.symm.trans hmade.firstPass))
  obtain rfl := Except.ok.inj (hm.symm.trans hmade.read)
  have hlooks : LooksUp config samplePath m := ⟨hkeep, hothers⟩
  exact ⟨config, m, used, root, hconfig, hstub, hmade, hlooks, hall hlooks⟩

def keepTopImports : Config :=
  { keepPublic with keepUnusedImports := some (.expr "parent_node_is('module')") }

/-- An import below an `if` statement that nothing uses. -/
def nestedImport : String := "if c:\n    import a\nx: int\n"

/-- The import below the `if` statement at the start of a module. -/
def firstNested? : List Stmt → Option Alias
  | .ifElse _ _ [.imports _ [a]] _ :: _ => some a
  | _ => none

/-- **An import can be left without a reason.** Whether names are looked up is decided at the top of
the module, also for imports that are not there. -/
theorem imports_left_unjustified : ¬ ∀ (config : ValidConfig) (debug : Bool) (path : Path)
    (text : List Char) (between out : String) (m m' : Module) (span : Span) (test : Expr)
    (body orelse : List Stmt),
    (pass config debug (sourceOf config path text) none false).outcome = .ok (between, none) →
    (sourceOf config path between.toList).readModule = .ok m →
    (generate config debug path text).outcome = .ok out →
    (sourceOf config path out.toList).readModule = .ok m' →
    .ifElse span test body orelse ∈ m'.body → ∀ stmt ∈ body, ∀ a ∈ stmt.aliases,
      Justified config (sourceOf config path between.toList) m [.if] a := by
  intro hall
  have hleft : keepTopImports.validate.toOption.any (fun config =>
      (sampleUnder config nestedImport).readModule.toOption.any fun m =>
        decide ((generate config false samplePath nestedImport.toList).outcome = .ok nestedImport)
        && decide ((pass config false (sampleUnder config nestedImport) none false).outcome
          = .ok (nestedImport, none))
        && decide (config.keepUnusedImports.isMatch
          { parentTags := [.if], tags := [.imports], filePath := samplePath.text } = .ok false)
        && decide (((sampleUnder config nestedImport).usedNames none m.body).outcome
          = .ok (some ["c", "x", "int"]))
        && decide (firstNested? m.body = some ⟨"a", none⟩)) = true := by decide +kernel
  simp only [any_toOption_iff, Bool.and_eq_true, decide_eq_true_eq] at hleft
  obtain ⟨config, _, m, hm, ⟨⟨⟨hstub, hpass⟩, hmatch⟩, hused⟩, hfirst⟩ := hleft
  unfold firstNested? at hfirst
  split at hfirst
  · next span test inner a orelse rest hbody =>
    cases hfirst
    have hjustified :=
      hall config false samplePath nestedImport.toList nestedImport nestedImport m m
      span test _ orelse hpass hm hstub hm (hbody ▸ List.mem_cons_self) _ List.mem_cons_self _
      List.mem_cons_self
    cases hjustified with
    | star h | exported h => exact absurd h (by decide)
    | used hstmt huses =>
      have hmem := ((Source.usedNames_ok hused).2 _).2 (.inr ⟨_, hstmt, huses⟩)
      exact absurd hmem (by decide)
    | matched h => cases h.symm.trans hmatch
  · cases hfirst

end Stub

end TypeStub
