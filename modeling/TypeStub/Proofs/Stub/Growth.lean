import TypeStub.Proofs.Stub.Outcome
import TypeStub.Proofs.Stub.Readable
/-!
# How a stub grows

What stubbing returns, read off once for each kind of statement. `Grows` collects these rules, so
that a property of stubs is shown by one induction on how the stub came about:

* `stub_grows`, `stubAll_grows`, `stubElse_grows`: whatever stubbing returns follows the rules;
* `stubImport_ok`, `stubAssign_ok`, `stubFunction_ok`, `stubString_ok`, `withEllipsis_ok`: what the
  steps return that no statement is inside of.
-/

namespace TypeStub

open TypeStub.Syntax StubM

/-- Whether a statement leaves nothing in a stub, whatever the configuration says. -/
def Syntax.Stmt.isSkipped : Stmt → Bool
  | .imports .. | .importFrom .. | .assign .. | .annAssign .. | .classDef .. | .functionDef ..
  | .ifElse .. | .tryBlock .. => false
  | .expr _ value => !value.isString
  | .withBlock _ isAsync .. => isAsync
  | _ => true

namespace Node

/-- The tags of nodes that depend on what stands around them: imports, documentation strings, and
marks for bodies that are left out. -/
def asideTags : List Tag := [.imports, .docstring, .ellipsis]

/-- Nodes with such tags and nothing inside. -/
def AreAside (nodes : List Node) : Prop :=
  ∀ n ∈ nodes, ∃ tag ∈ asideTags, ∃ line, n = leaf tag line

theorem areAside_nil : AreAside [] := nofun

theorem areAside_leaf {tag} (h : tag ∈ asideTags) (line : String) : AreAside [leaf tag line] :=
  List.forall_mem_singleton.2 ⟨tag, h, line, rfl⟩

end Node

namespace Session

/-! ## The rules -/

/-- What is stubbed below a parent with the given tags: a statement, a block of statements, or the
further branches of an `if` statement. -/
inductive Part
  | stmt (parentTags : List Tag) (last : Option (List Tag)) (stmt : Stmt)
  | block (parentTags : List Tag) (last : Option (List Tag)) (stmts : List Stmt)
  | orelse (parentTags : List Tag) (stmts : List Stmt)

/-- The rules by which the nodes of a stub come about. One relation covers statements, blocks and
branches, so that an induction on it needs no mutual statements. -/
inductive Grows (s : Session) : Part → List Node → Prop
  | imports {parentTags last span names nodes} :
      (s.stubImport parentTags names fun kept => .imports span kept).outcome = .ok nodes →
      Grows s (.stmt parentTags last (.imports span names)) nodes
  | importFrom {parentTags last span module names level nodes} :
      (s.stubImport parentTags names fun kept => .importFrom span module kept level).outcome
        = .ok nodes →
      Grows s (.stmt parentTags last (.importFrom span module names level)) nodes
  | assign {parentTags last span targets value comment nodes} :
      (s.stubAssign parentTags targets true none (some value)).outcome = .ok nodes →
      Grows s (.stmt parentTags last (.assign span targets value comment)) nodes
  | annAssign {parentTags last span target annot value simple nodes} :
      (s.stubAssign parentTags [target] simple (some annot) value).outcome = .ok nodes →
      Grows s (.stmt parentTags last (.annAssign span target annot value simple)) nodes
  | functionDef {parentTags last span head body nodes} :
      (s.stubFunction parentTags head body).outcome = .ok nodes →
      Grows s (.stmt parentTags last (.functionDef span head body)) nodes
  | classPruned {parentTags last span head body} :
      s.config.keepDefinitions.isMatch (s.definitionContext parentTags .classDef head.name)
        = .ok false →
      Grows s (.stmt parentTags last (.classDef span head body)) []
  | classDef {parentTags last span head body decorators line inner children} :
      s.config.keepDefinitions.isMatch (s.definitionContext parentTags .classDef head.name)
        = .ok true →
      (decoratorLines head.decorators).outcome = .ok decorators →
      (classLine head).outcome = .ok line →
      Grows s (.block [.classDef] none body) inner →
      (s.withEllipsis parentTags [.classDef] (some head.name) inner).outcome = .ok children →
      Grows s (.stmt parentTags last (.classDef span head body))
        [{ tags := [.classDef], lines := decorators ++ [line], children }, Node.spacer]
  | string {parentTags last span value nodes} :
      value.isString = true → (s.stubString parentTags last span).outcome = .ok nodes →
      Grows s (.stmt parentTags last (.expr span value)) nodes
  | skipped {parentTags last stmt} :
      stmt.isSkipped = true → Grows s (.stmt parentTags last stmt) []
  | ifDropped {parentTags last span test body orelse condition} :
      test.render = .ok condition →
      s.config.flattenIf.isMatch (s.conditionContext parentTags condition) = .ok false →
      s.config.keepIfStatements.isMatch (s.context parentTags [.if]) = .ok false →
      Grows s (.stmt parentTags last (.ifElse span test body orelse)) []
  | ifFlattened {parentTags last span test body orelse condition outer} :
      test.render = .ok condition →
      s.config.flattenIf.isMatch (s.conditionContext parentTags condition) = .ok true →
      Grows s (.block parentTags last body) outer →
      s.config.keepIfStatements.isMatch (s.context parentTags [.if]) = .ok false →
      Grows s (.stmt parentTags last (.ifElse span test body orelse)) outer
  | ifKept {parentTags last span test body orelse condition inner children more} :
      test.render = .ok condition →
      s.config.flattenIf.isMatch (s.conditionContext parentTags condition) = .ok false →
      s.config.keepIfStatements.isMatch (s.context parentTags [.if]) = .ok true →
      Grows s (.block [.if] none body) inner →
      (s.withEllipsis parentTags [.if] none inner).outcome = .ok children →
      Grows s (.orelse parentTags orelse) more →
      Grows s (.stmt parentTags last (.ifElse span test body orelse))
        ({ tags := [.if], lines := ["if " ++ condition ++ ":"], children } :: more)
  | ifKeptFlattened {parentTags last span test body orelse condition outer children more} :
      test.render = .ok condition →
      s.config.flattenIf.isMatch (s.conditionContext parentTags condition) = .ok true →
      Grows s (.block parentTags last body) outer →
      s.config.keepIfStatements.isMatch (s.context parentTags [.if]) = .ok true →
      (s.withEllipsis parentTags [.if] none []).outcome = .ok children →
      Grows s (.orelse parentTags orelse) more →
      Grows s (.stmt parentTags last (.ifElse span test body orelse))
        (outer ++ { tags := [.if], lines := ["if " ++ condition ++ ":"], children } :: more)
  | tryBlock {parentTags last span isStar body handlers orelse finalbody nodes} :
      Grows s (.block parentTags last body) nodes →
      Grows s (.stmt parentTags last (.tryBlock span isStar body handlers orelse finalbody)) nodes
  | withBlock {parentTags last span items body comment nodes} :
      Grows s (.block parentTags last body) nodes →
      Grows s (.stmt parentTags last (.withBlock span false items body comment)) nodes
  | nil {parentTags last} : Grows s (.block parentTags last []) []
  | cons {parentTags last stmt rest nodes more} :
      Grows s (.stmt parentTags last stmt) nodes →
      Grows s (.block parentTags ((Node.lastTags nodes).or last) rest) more →
      Grows s (.block parentTags last (stmt :: rest)) (nodes ++ more)
  | noBranch {parentTags} : Grows s (.orelse parentTags []) []
  | elif {parentTags span test body orelse condition inner children more} :
      test.render = .ok condition →
      Grows s (.block [.if] none body) inner →
      (s.withEllipsis parentTags [.if] none inner).outcome = .ok children →
      Grows s (.orelse parentTags orelse) more →
      Grows s (.orelse parentTags [.ifElse span test body orelse])
        ({ tags := [.if], lines := ["elif " ++ condition ++ ":"], children } :: more)
  | orelse {parentTags stmt rest inner children} :
      (∀ span test body orelse, stmt :: rest ≠ [.ifElse span test body orelse]) →
      Grows s (.block [.if] none (stmt :: rest)) inner →
      (s.withEllipsis parentTags [.if] none inner).outcome = .ok children →
      Grows s (.orelse parentTags (stmt :: rest))
        [{ tags := [.if], lines := ["else:"], children }]

variable {s : Session} {parentTags : List Tag} {last : Option (List Tag)} {nodes : List Node}

/-! ## Steps without statements inside -/

theorem isMatch_ite_ok {α : Type} {f : Filter} {ctx} {x y : StubM α} [Steady x] [Steady y] {a} :
    (isMatch f ctx >>= fun b => if b = true then x else y).outcome = .ok a ↔
      (f.isMatch ctx = .ok true ∧ x.outcome = .ok a) ∨
        (f.isMatch ctx = .ok false ∧ y.outcome = .ok a) := by
  rw [outcome_bind_ok]
  constructor
  · rintro ⟨b, hb, h⟩
    cases b with
    | true => exact .inl ⟨isMatch_ok.1 hb, h⟩
    | false => exact .inr ⟨isMatch_ok.1 hb, h⟩
  · rintro (⟨hb, h⟩ | ⟨hb, h⟩)
    · exact ⟨true, isMatch_ok.2 hb, h⟩
    · exact ⟨false, isMatch_ok.2 hb, h⟩

theorem remark_ok {x} [Steady x] (hx : x.outcome = .ok ()) :
    (do x; return ([] : List Node)).outcome = .ok nodes ↔ nodes = [] := by
  rw [outcome_bind_of_ok hx, outcome_pure, Except.ok.injEq, eq_comm]

theorem withEllipsis_ok {tags name inner}
    (h : (s.withEllipsis parentTags tags name inner).outcome = .ok nodes) :
    (inner = [] ∧ nodes = [Node.ellipsis]) ∨
      (inner ≠ [] ∧ (nodes = inner ∨ nodes = inner ++ [Node.ellipsis])) := by
  unfold withEllipsis at h
  cases inner with
  | nil =>
    cases h
    exact .inl ⟨rfl, rfl⟩
  | cons first rest =>
    refine .inr ⟨List.cons_ne_nil _ _, ?_⟩
    simp only [List.isEmpty_cons, Bool.false_eq_true, if_false, isMatch_ite_ok, outcome_pure,
      Except.ok.injEq] at h
    obtain ⟨_, rfl⟩ | ⟨_, rfl⟩ := h
    · exact .inr rfl
    · exact .inl rfl

theorem stubImport_ok {names} {remade : List Alias → Stmt}
    (h : (s.stubImport parentTags names remade).outcome = .ok nodes) :
    ∃ kept, (s.keptAliases parentTags names).outcome = .ok kept ∧
      ((kept = [] ∧ nodes = []) ∨
        (kept ≠ [] ∧ ∃ line, (remade kept).render = .ok line ∧ '\n' ∉ line.toList ∧
          nodes = [Node.leaf .imports line])) := by
  unfold stubImport at h
  obtain ⟨kept, hkept, h⟩ := outcome_bind_ok.1 h
  refine ⟨kept, hkept, ?_⟩
  cases kept with
  | nil =>
    cases h
    exact .inl ⟨rfl, rfl⟩
  | cons first rest =>
    simp only [List.isEmpty_cons, Bool.false_eq_true, if_false, outcome_bind_ok, ofResult_ok,
      oneLine_ok, outcome_pure, Except.ok.injEq] at h
    obtain ⟨line, hline, _, ⟨hfits, rfl⟩, rfl⟩ := h
    exact .inr ⟨List.cons_ne_nil _ _, line, hline, hfits, rfl⟩

theorem stubAssign_ok {targets simple annot value}
    (h : (s.stubAssign parentTags targets simple annot value).outcome = .ok nodes) :
    ∃ text, (targetsText targets simple).outcome = .ok text ∧
      (('.' ∈ text.toList ∧ nodes = []) ∨
        ('.' ∉ text.toList ∧ ∃ annotText valueText shown,
          (s.optionType annot).outcome = .ok annotText ∧
          (optionLine value).outcome = .ok valueText ∧
          (∃ keep, (s.shownValue keep (variableName text) valueText).outcome = .ok shown) ∧
          ((s.config.keepDefinitions.isMatch
                (s.variableContext parentTags text annotText valueText) = .ok false ∧
              nodes = []) ∨
            (s.config.keepDefinitions.isMatch
                (s.variableContext parentTags text annotText valueText) = .ok true ∧
              nodes = [{ tags := (s.variableContext parentTags text annotText valueText).tags,
                         lines := [text ++ (annotText.elim "" (": " ++ ·)) ++ shown],
                         children := [] }])))) := by
  unfold stubAssign at h
  obtain ⟨text, htext, h⟩ := outcome_bind_ok.1 h
  refine ⟨text, htext, ?_⟩
  by_cases hdot : '.' ∈ text.toList
  · simp only [List.contains_eq_mem, hdot, decide_true, if_true, outcome_pure,
      Except.ok.injEq] at h
    exact .inl ⟨hdot, h.symm⟩
  · refine .inr ⟨hdot, ?_⟩
    simp only [List.contains_eq_mem, hdot, decide_false, Bool.false_eq_true, if_false] at h
    obtain ⟨annotText, hannot, h⟩ := outcome_bind_ok.1 h
    obtain ⟨valueText, hvalue, h⟩ := outcome_bind_ok.1 h
    obtain ⟨keep, _, h⟩ := outcome_bind_ok.1 h
    obtain ⟨shown, hshown, h⟩ := outcome_bind_ok.1 h
    obtain ⟨line, hline, h⟩ := outcome_bind_ok.1 h
    obtain ⟨_, rfl⟩ := oneLine_ok.1 hline
    refine ⟨annotText, valueText, shown, hannot, hvalue, ⟨keep, hshown⟩, ?_⟩
    obtain ⟨hkeep, h⟩ | ⟨hkeep, h⟩ := isMatch_ite_ok.1 h
    · exact .inr ⟨hkeep, (Except.ok.inj h).symm⟩
    · exact .inl ⟨hkeep, (remark_ok (sayPruned_outcome ..)).1 h⟩

/-- A string is kept in front of all nodes, and behind others if the filter matches for the last. -/
def KeepsString (s : Session) (parentTags : List Tag) (last : Option (List Tag)) : Prop :=
  ∀ tags ∈ last, s.config.keepTrailingDocstrings.Holds (s.context parentTags tags)

/-- What is left of a string: its text as it stands in the source if it is kept, and else nothing.
-/
def DocOf (s : Session) (parentTags : List Tag) (last : Option (List Tag)) (span : Span)
    (doc : List Node) : Prop :=
  (¬ s.KeepsString parentTags last ∧ doc = []) ∨
    (s.KeepsString parentTags last ∧ ∃ text, (s.source.spanText span).outcome = .ok text ∧
      doc = [Node.leaf .docstring text])

theorem stubString_ok {span} (h : (s.stubString parentTags last span).outcome = .ok nodes) :
    s.DocOf parentTags last span nodes := by
  unfold stubString at h
  cases last with
  | none =>
    obtain ⟨text, htext, h⟩ := (outcome_bind_ok (x := s.source.spanText span)).1 h
    exact .inr ⟨nofun, text, htext, (Except.ok.inj h).symm⟩
  | some tags =>
    obtain ⟨hkeep, h⟩ | ⟨hdrop, h⟩ := isMatch_ite_ok.1 h
    · obtain ⟨text, htext, h⟩ := outcome_bind_ok.1 h
      refine .inr ⟨?_, text, htext, (Except.ok.inj h).symm⟩
      rintro _ ⟨⟩
      exact hkeep
    · exact .inl ⟨fun hkeeps => (nomatch (hkeeps tags rfl).symm.trans hdrop),
        (Except.ok.inj h).symm⟩

theorem functionDoc_ok {body} (h : (s.functionDoc body).outcome = .ok nodes) :
    nodes = [] ∨ ∃ span value rest, body = .expr span value :: rest ∧
      value.isString = true ∧ s.DocOf [.function] none span nodes := by
  cases body with
  | nil => exact .inl (Except.ok.inj h).symm
  | cons first rest =>
    rw [functionDoc] at h
    split at h
    · next hstring =>
      cases first with
      | expr span value => exact .inr ⟨span, value, rest, rfl, hstring, stubString_ok h⟩
      | _ => cases hstring
    · exact .inl (Except.ok.inj h).symm

theorem stubFunction_ok {head : FunctionHead} {body}
    (h : (s.stubFunction parentTags head body).outcome = .ok nodes) :
    (s.config.keepDefinitions.isMatch (s.definitionContext parentTags .function head.name)
        = .ok false ∧ nodes = []) ∨
      (s.config.keepDefinitions.isMatch (s.definitionContext parentTags .function head.name)
        = .ok true ∧ ∃ decorators line doc children,
          (decoratorLines head.decorators).outcome = .ok decorators ∧
          (s.functionLine parentTags head).outcome = .ok line ∧
          (s.functionDoc body).outcome = .ok doc ∧
          (s.withEllipsis parentTags [.function] (some head.name) doc).outcome = .ok children ∧
          nodes = [{ tags := [.function], lines := decorators ++ [line], children },
            Node.spacer]) := by
  unfold stubFunction at h
  obtain ⟨hkeep, h⟩ | ⟨hkeep, h⟩ := isMatch_ite_ok.1 h
  · refine .inr ⟨hkeep, ?_⟩
    rw [outcome_bind_of_ok (Source.sayTypeComment_outcome ..)] at h
    obtain ⟨decorators, hdecorators, h⟩ := outcome_bind_ok.1 h
    obtain ⟨line, hline, h⟩ := outcome_bind_ok.1 h
    obtain ⟨doc, hdoc, h⟩ := outcome_bind_ok.1 h
    obtain ⟨children, hchildren, h⟩ := outcome_bind_ok.1 h
    exact ⟨decorators, line, doc, children, hdecorators, hline, hdoc, hchildren,
      (Except.ok.inj h).symm⟩
  · exact .inl ⟨hkeep, (remark_ok (sayPruned_outcome ..)).1 h⟩

theorem stubImport_aside {names} {remade : List Alias → Stmt}
    (h : (s.stubImport parentTags names remade).outcome = .ok nodes) : Node.AreAside nodes := by
  obtain ⟨_, _, ⟨_, rfl⟩ | ⟨_, _, _, _, rfl⟩⟩ := stubImport_ok h
  · exact Node.areAside_nil
  · exact Node.areAside_leaf (by decide) _

theorem DocOf.aside {span} (h : s.DocOf parentTags last span nodes) : Node.AreAside nodes := by
  obtain ⟨-, rfl⟩ | ⟨-, _, _, rfl⟩ := h
  · exact Node.areAside_nil
  · exact Node.areAside_leaf (by decide) _

theorem functionDoc_aside {body} (h : (s.functionDoc body).outcome = .ok nodes) :
    Node.AreAside nodes := by
  obtain rfl | ⟨_, _, _, -, -, hdoc⟩ := functionDoc_ok h
  · exact Node.areAside_nil
  · exact hdoc.aside

theorem withEllipsis_append {tags name inner}
    (h : (s.withEllipsis parentTags tags name inner).outcome = .ok nodes) :
    ∃ mark, Node.AreAside mark ∧ nodes = inner ++ mark := by
  have hmark : Node.AreAside [Node.ellipsis] := Node.areAside_leaf (by decide) _
  obtain ⟨rfl, rfl⟩ | ⟨_, rfl | rfl⟩ := withEllipsis_ok h
  · exact ⟨_, hmark, rfl⟩
  · exact ⟨_, Node.areAside_nil, (List.append_nil _).symm⟩
  · exact ⟨_, hmark, rfl⟩

/-! ## What stubbing returns follows the rules -/

theorem branchNode_ok {line inner n} (h : (s.branchNode parentTags line inner).outcome = .ok n) :
    ∃ children, (s.withEllipsis parentTags [.if] none inner).outcome = .ok children ∧
      n = { tags := [.if], lines := [line], children } := by
  unfold branchNode at h
  obtain ⟨children, hchildren, h⟩ := outcome_bind_ok.1 h
  exact ⟨children, hchildren, (Except.ok.inj h).symm⟩

theorem ifNodes_ok {condition outer} {inner others : StubM (List Node)} [Steady inner]
    [Steady others] (h : (s.ifNodes parentTags condition outer inner others).outcome = .ok nodes) :
    (s.config.keepIfStatements.isMatch (s.context parentTags [.if]) = .ok false ∧
        nodes = outer) ∨
      (s.config.keepIfStatements.isMatch (s.context parentTags [.if]) = .ok true ∧
        ∃ body children more, inner.outcome = .ok body ∧
          (s.withEllipsis parentTags [.if] none body).outcome = .ok children ∧
          others.outcome = .ok more ∧
          nodes = outer ++ { tags := [.if], lines := ["if " ++ condition ++ ":"], children }
            :: more) := by
  unfold ifNodes at h
  obtain ⟨hkeep, h⟩ | ⟨hkeep, h⟩ := isMatch_ite_ok.1 h
  · refine .inr ⟨hkeep, ?_⟩
    obtain ⟨line, hline, h⟩ := outcome_bind_ok.1 h
    obtain ⟨_, rfl⟩ := oneLine_ok.1 hline
    obtain ⟨body, hbody, h⟩ := outcome_bind_ok.1 h
    obtain ⟨first, hfirst, h⟩ := outcome_bind_ok.1 h
    obtain ⟨children, hchildren, rfl⟩ := branchNode_ok hfirst
    obtain ⟨more, hmore, h⟩ := outcome_bind_ok.1 h
    exact ⟨body, children, more, hbody, hchildren, hmore, (Except.ok.inj h).symm⟩
  · exact .inl ⟨hkeep, (Except.ok.inj h).symm⟩

theorem other_ok {stmt} (h : (do s.stubOther stmt; return ([] : List Node)).outcome = .ok nodes) :
    nodes = [] := by
  obtain ⟨_, _, h⟩ := outcome_bind_ok.1 h
  exact (Except.ok.inj h).symm

mutual

/-- What a statement becomes follows the rules. -/
theorem stub_grows (parentTags : List Tag) (last : Option (List Tag)) {nodes} :
    (stmt : Stmt) → (s.stub parentTags last stmt).outcome = .ok nodes →
      s.Grows (.stmt parentTags last stmt) nodes
  | .imports .., h => by
    rw [stub] at h
    exact .imports h
  | .importFrom .., h => by
    rw [stub] at h
    exact .importFrom h
  | .assign .., h => by
    rw [stub, outcome_bind_of_ok (Source.sayTypeComment_outcome ..)] at h
    exact .assign h
  | .annAssign .., h => by
    rw [stub] at h
    exact .annAssign h
  | .functionDef .., h => by
    rw [stub] at h
    exact .functionDef h
  | .classDef _ head body, h => by
    rw [stub] at h
    obtain ⟨hkeep, h⟩ | ⟨hkeep, h⟩ := isMatch_ite_ok.1 h
    · obtain ⟨decorators, hdecorators, h⟩ := outcome_bind_ok.1 h
      obtain ⟨line, hline, h⟩ := outcome_bind_ok.1 h
      obtain ⟨inner, hinner, h⟩ := outcome_bind_ok.1 h
      obtain ⟨children, hchildren, h⟩ := outcome_bind_ok.1 h
      cases h
      exact .classDef hkeep hdecorators hline (stubAll_grows [.classDef] none body hinner) hchildren
    · obtain rfl := (remark_ok (sayPruned_outcome ..)).1 h
      exact .classPruned hkeep
  | .expr span value, h => by
    rw [stub] at h
    split at h
    · next hstring => exact .string hstring h
    · next hstring =>
      obtain rfl := other_ok h
      exact .skipped (by simpa [Stmt.isSkipped] using hstring)
  | .ifElse _ test body orelse, h => by
    rw [stub] at h
    obtain ⟨condition, htest, h⟩ := outcome_bind_ok.1 h
    have htest := exprLine_ok.1 htest
    obtain ⟨hflat, h⟩ | ⟨hflat, h⟩ := isMatch_ite_ok.1 h
    · obtain ⟨outer, houter, h⟩ := outcome_bind_ok.1 h
      have houter := stubAll_grows parentTags last body houter
      obtain ⟨hkeep, rfl⟩ | ⟨hkeep, _, children, more, hinner, hchildren, hmore, rfl⟩ :=
        ifNodes_ok h
      · exact .ifFlattened htest hflat houter hkeep
      · cases hinner
        exact .ifKeptFlattened htest hflat houter hkeep hchildren
          (stubElse_grows parentTags orelse hmore)
    · obtain ⟨hkeep, rfl⟩ | ⟨hkeep, inner, children, more, hinner, hchildren,
        hmore, rfl⟩ :=
        ifNodes_ok h
      · exact .ifDropped htest hflat hkeep
      · exact .ifKept htest hflat hkeep (stubAll_grows [.if] none body hinner) hchildren
          (stubElse_grows parentTags orelse hmore)
  | .tryBlock _ _ body _ _ _, h => by
    rw [stub] at h
    exact .tryBlock (stubAll_grows parentTags last body h)
  | .withBlock _ true .., h => by
    rw [stub] at h
    obtain rfl := other_ok h
    exact .skipped rfl
  | .withBlock _ false _ body _, h => by
    rw [stub] at h
    exact .withBlock (stubAll_grows parentTags last body h)
  | .ret .., h | .delete .., h | .augAssign .., h | .forLoop .., h | .whileLoop .., h
  | .matchCases .., h | .raise .., h | .assert .., h | .global .., h | .nonlocal .., h
  | .pass _, h | .break _, h | .continue _, h => by
    simp only [stub] at h
    obtain rfl := other_ok h
    exact .skipped rfl
termination_by stmt => sizeOf stmt

/-- What several statements become follows the rules. -/
theorem stubAll_grows (parentTags : List Tag) (last : Option (List Tag)) {nodes} :
    (stmts : List Stmt) → (s.stubAll parentTags last stmts).outcome = .ok nodes →
      s.Grows (.block parentTags last stmts) nodes
  | [], h => by
    rw [stubAll] at h
    cases h
    exact .nil
  | stmt :: rest, h => by
    rw [stubAll] at h
    obtain ⟨nodes, hnodes, h⟩ := outcome_bind_ok.1 h
    obtain ⟨more, hmore, h⟩ := outcome_bind_ok.1 h
    cases h
    exact .cons (stub_grows parentTags last stmt hnodes) (stubAll_grows parentTags _ rest hmore)
termination_by stmts => sizeOf stmts

/-- What the further branches of an `if` statement become follows the rules. -/
theorem stubElse_grows (parentTags : List Tag) {nodes} :
    (stmts : List Stmt) → (s.stubElse parentTags stmts).outcome = .ok nodes →
      s.Grows (.orelse parentTags stmts) nodes
  | [], h => by
    rw [stubElse] at h
    cases h
    exact .noBranch
  | stmt :: rest, h => by
    unfold stubElse at h
    split at h
    · next heq => cases heq
    · next span test body orelse heq =>
      cases heq
      obtain ⟨condition, htest, h⟩ := outcome_bind_ok.1 h
      obtain ⟨line, hline, h⟩ := outcome_bind_ok.1 h
      obtain ⟨_, rfl⟩ := oneLine_ok.1 hline
      obtain ⟨inner, hinner, h⟩ := outcome_bind_ok.1 h
      obtain ⟨branch, hbranch, h⟩ := outcome_bind_ok.1 h
      obtain ⟨children, hchildren, rfl⟩ := branchNode_ok hbranch
      obtain ⟨more, hmore, h⟩ := outcome_bind_ok.1 h
      cases h
      exact .elif (exprLine_ok.1 htest) (stubAll_grows [.if] none _ hinner) hchildren
        (stubElse_grows parentTags _ hmore)
    · next stmt' rest' hnot heq =>
      cases heq
      obtain ⟨nodes, hnodes, h⟩ := outcome_bind_ok.1 h
      obtain ⟨more, hmore, h⟩ := outcome_bind_ok.1 h
      obtain ⟨branch, hbranch, h⟩ := outcome_bind_ok.1 h
      obtain ⟨children, hchildren, rfl⟩ := branchNode_ok hbranch
      cases h
      have hmore : s.Grows (.block [.if] ((Node.lastTags nodes).or none) rest) more := by
        rw [Option.or_none]
        exact stubAll_grows [.if] _ rest hmore
      refine .orelse ?_ (.cons (stub_grows [.if] none stmt hnodes) hmore) hchildren
      rintro span test body orelse heq
      cases heq
      exact hnot span test body orelse rfl rfl
termination_by stmts => sizeOf stmts

end

theorem stubModule_ok {m root} (h : (s.stubModule m).outcome = .ok root) :
    ∃ children, (s.stubAll [.module] none m.body).outcome = .ok children ∧
      root = { tags := [.module], lines := [], children } := by
  unfold stubModule at h
  split at h
  case' isTrue => rw [outcome_bind_of_ok (sayUnexpected_outcome _)] at h
  all_goals
    obtain ⟨children, hchildren, hroot⟩ := outcome_bind_ok.1 h
    exact ⟨children, hchildren, (Except.ok.inj hroot).symm⟩

theorem stubModule_grows {m root} (h : (s.stubModule m).outcome = .ok root) :
    ∃ children, s.Grows (.block [.module] none m.body) children ∧
      root = { tags := [.module], lines := [], children } := by
  obtain ⟨children, hchildren, hroot⟩ := stubModule_ok h
  exact ⟨children, stubAll_grows _ _ _ hchildren, hroot⟩

end Session

end TypeStub
