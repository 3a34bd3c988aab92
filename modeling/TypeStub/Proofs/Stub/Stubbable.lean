import TypeStub.Proofs.Source.Spans
import TypeStub.Proofs.Stub.Lines
/-!
# What can be stubbed

A pass over a module returns a stub exactly if everything that it writes into a line fits into one,
everything that it has to print can be printed, and no class that it keeps unpacks keywords. The
conditions follow the statements of the module as far as the pass does.
-/

namespace TypeStub

open TypeStub.Syntax StubM

/-- A statement prints. -/
def Syntax.Stmt.Prints (stmt : Stmt) : Prop :=
  ∃ text, stmt.render = .ok text

/-- A statement prints, into one line. -/
def Syntax.Stmt.FitsLine (stmt : Stmt) : Prop :=
  ∃ text, stmt.render = .ok text ∧ '\n' ∉ text.toList

namespace Session

/-- What the header of a class needs. Every keyword has a name. -/
structure ClassFits (head : ClassHead) : Prop where
  name : '\n' ∉ head.name.toList
  decorators : ∀ e ∈ head.decorators, e.FitsLine
  bases : ∀ e ∈ head.bases, e.FitsLine
  keywords : ∀ k ∈ head.keywords, ∃ name, k.name = some name ∧ '\n' ∉ name.toList ∧
    k.value.FitsLine

/-- What the header of a function needs. -/
structure FunctionFits (s : Source) (head : FunctionHead) : Prop where
  name : '\n' ∉ head.name.toList
  decorators : ∀ e ∈ head.decorators, e.FitsLine
  params : ∀ p ∈ head.params.all, s.ParamFits p
  returns : ∀ e ∈ head.returns, s.TypeFits e

/-- What an import needs: the names that are kept of it, if there are any, fit into a line. -/
def ImportFits (s : Session) (parentTags : List Tag) (names : List Alias)
    (remade : List Alias → Stmt) : Prop :=
  ∀ kept, (s.keptAliases parentTags names).outcome = .ok kept →
    kept = [] ∨ (remade kept).FitsLine

/-- What a variable with the given targets needs. Its value has to fit into a line only if it is
kept. -/
def VariableFits (s : Session) (parentTags : List Tag) (targets : String)
    (annot value : Option Expr) : Prop :=
  '\n' ∉ targets.toList ∧ (∀ e ∈ annot, s.source.TypeFits e) ∧
    ∃ annotText valueText, (s.optionType annot).outcome = .ok annotText ∧
      (optionLine value).outcome = .ok valueText ∧
      (s.config.keepVariableValue.Holds
          (s.variableContext parentTags targets annotText valueText) →
        ∀ text ∈ valueText, '\n' ∉ text.toList)

/-- What an assignment needs. One to an attribute needs no more than that its targets print. -/
def AssignFits (s : Session) (parentTags : List Tag) (targets : List Expr) (simple : Bool)
    (annot value : Option Expr) : Prop :=
  ∃ text, (targetsText targets simple).outcome = .ok text ∧
    ('.' ∉ text.toList → s.VariableFits parentTags text annot value)

mutual

/-- What a statement needs to be stubbed below a parent with the given tags. -/
def Stubbable (s : Session) (parentTags : List Tag) : Stmt → Prop
  | .imports span names => s.ImportFits parentTags names fun kept => .imports span kept
  | .importFrom span module names level =>
    s.ImportFits parentTags names fun kept => .importFrom span module kept level
  | .assign _ targets value _ => s.AssignFits parentTags targets true none (some value)
  | .annAssign _ target annot value simple =>
    s.AssignFits parentTags [target] simple (some annot) value
  | .classDef _ head body =>
    s.config.keepDefinitions.Holds (s.definitionContext parentTags .classDef head.name) →
      ClassFits head ∧ s.StubbableAll [.classDef] body
  | .functionDef _ head _ =>
    s.config.keepDefinitions.Holds (s.definitionContext parentTags .function head.name) →
      FunctionFits s.source head
  | .ifElse _ test body orelse =>
    ∃ condition, test.render = .ok condition ∧
      (s.config.flattenIf.Holds (s.conditionContext parentTags condition) →
        s.StubbableAll parentTags body) ∧
      (s.config.keepIfStatements.Holds (s.context parentTags [.if]) →
        '\n' ∉ condition.toList ∧
        (¬ s.config.flattenIf.Holds (s.conditionContext parentTags condition) →
          s.StubbableAll [.if] body) ∧
        s.StubbableElse orelse)
  | .tryBlock _ _ body _ _ _ => s.StubbableAll parentTags body
  | .withBlock span true items body comment => (Stmt.withBlock span true items body comment).Prints
  | .withBlock _ false _ body _ => s.StubbableAll parentTags body
  | .forLoop span true target iter body orelse comment =>
    (Stmt.forLoop span true target iter body orelse comment).Prints
  | .ret span value => (Stmt.ret span value).Prints
  | _ => True

/-- What several statements need. -/
def StubbableAll (s : Session) (parentTags : List Tag) : List Stmt → Prop
  | [] => True
  | stmt :: rest => s.Stubbable parentTags stmt ∧ s.StubbableAll parentTags rest

/-- What the further branches of an `if` statement need. -/
def StubbableElse (s : Session) : List Stmt → Prop
  | [] => True
  | [.ifElse _ test body orelse] =>
    test.FitsLine ∧ s.StubbableAll [.if] body ∧ s.StubbableElse orelse
  | stmt :: rest => s.Stubbable [.if] stmt ∧ s.StubbableAll [.if] rest

end

/-! ## Headers -/

theorem mapM_oneLine_returns {f : String → String}
    (hf : ∀ t, '\n' ∈ (f t).toList ↔ '\n' ∈ t.toList) (texts : List String) :
    Returns (texts.mapM fun t => oneLine (f t)) ↔ ∀ t ∈ texts, '\n' ∉ t.toList := by
  induction texts with
  | nil => simpa using returns_pure _
  | cons t texts ih =>
    rw [List.mapM_cons, returns_bind_and (P := ∀ t ∈ texts, '\n' ∉ t.toList),
      List.forall_mem_cons]
    · simp [Returns, hf]
    · intro line
      rw [returns_bind_pure, ih]

theorem decoratorLines_returns {ds} : Returns (decoratorLines ds) ↔ ∀ e ∈ ds, e.FitsLine := by
  rw [← Source.plainTexts_fits, decoratorLines, returns_bind, AllFit]
  simp only [mapM_oneLine_returns (f := ("@" ++ ·)) fun t => by simp]

theorem classKeywords_fits {ks} : AllFit (classKeywords ks) ↔
      ∀ k ∈ ks, ∃ name, k.name = some name ∧ '\n' ∉ name.toList ∧ k.value.FitsLine := by
  induction ks with
  | nil => simpa [classKeywords] using allFit_nil
  | cons k ks ih =>
    rw [List.forall_mem_cons, ← ih, classKeywords]
    cases k.name with
    | none => simp [AllFit]
    | some name =>
      have hcons : (do
            let value ← exprLine k.value
            let more ← classKeywords ks
            return (name ++ " = " ++ value) :: more)
          = (do
            let t ← (do let value ← exprLine k.value; return name ++ " = " ++ value)
            let more ← classKeywords ks
            return t :: more) := by simp
      simp only [hcons]
      rw [allFit_cons, fits_around fun t => show _ ↔ '\n' ∉ name.toList ∧ _ by simp,
        Source.exprLine_fits]
      simp

theorem classLine_returns {head} :
    Returns (classLine head) ↔ '\n' ∉ head.name.toList ∧
    (∀ e ∈ head.bases, e.FitsLine) ∧
      ∀ k ∈ head.keywords, ∃ name, k.name = some name ∧ '\n' ∉ name.toList ∧
      k.value.FitsLine := by
  rw [← Source.plainTexts_fits, ← classKeywords_fits]
  -- the parts of the line
  have hline : ∀ all : List String, '\n' ∉ ("class " ++ head.name
      ++ (if all.isEmpty then "" else "(" ++ Text.join ", " all ++ ")") ++ ":").toList ↔
      '\n' ∉ head.name.toList ∧ ∀ t ∈ all, '\n' ∉ t.toList := by
    intro all
    cases all with
    | nil => simp
    | cons t all => simp [Text.mem_join (show '\n' ∉ ", ".toList by decide)]
  simp only [classLine, returns_bind, returns_oneLine, hline, AllFit]
  constructor
  · rintro ⟨bases, hbases, keywords, hkeywords, hname, hall⟩
    obtain ⟨hb, hk⟩ := List.forall_mem_append.1 hall
    exact ⟨hname, ⟨bases, hbases, hb⟩, keywords, hkeywords, hk⟩
  · rintro ⟨hname, ⟨bases, hbases, hb⟩, keywords, hkeywords, hk⟩
    exact ⟨bases, hbases, keywords, hkeywords, hname, List.forall_mem_append.2 ⟨hb, hk⟩⟩

/-! ## Functions -/

theorem returns_isMatch {α : Type} {f ctx} {g : Bool → StubM α} [∀ b, Steady (g b)]
    (hf : f.condition.Readable) :
    Returns (isMatch f ctx >>= g) ↔ ∃ b : Bool, (b = true ↔ f.Holds ctx) ∧
    Returns (g b) := by
  obtain ⟨b, hb, hholds⟩ := Filter.isMatch_eq_ok hf ctx
  rw [returns_bind_of_ok (isMatch_ok.2 hb)]
  constructor
  · intro h
    exact ⟨b, hholds, h⟩
  · rintro ⟨b', hb', h⟩
    have : b = b' := Bool.eq_iff_iff.2 (hholds.trans hb'.symm)
    rwa [this]

theorem returns_isMatch_ite {α : Type} {f : Filter} {ctx : Filter.Context} {x y : StubM α}
    [Steady x] [Steady y] (hf : f.condition.Readable) :
    Returns (isMatch f ctx >>= fun b => if b = true then x else y) ↔
      (f.Holds ctx → Returns x) ∧ (¬ f.Holds ctx → Returns y) := by
  rw [returns_isMatch hf]
  constructor
  · rintro ⟨b, hb, h⟩
    simp only [← hb]
    cases b <;> simp_all
  · rintro ⟨hx, hy⟩
    by_cases hholds : f.Holds ctx
    · exact ⟨true, iff_of_true rfl hholds, hx hholds⟩
    · exact ⟨false, iff_of_false Bool.false_ne_true hholds, hy hholds⟩

variable {s : Session} {parentTags : List Tag}

section Returns

variable (hc : s.config.Readable)
include hc

theorem returnsText_fits {head} (h : ∀ e ∈ head.returns, e.TypeSpans s.source.Cuts) :
    Fits (s.returnsText parentTags head) ↔ ∀ e ∈ head.returns, s.source.TypeFits e := by
  unfold returnsText
  cases hreturns : head.returns with
  | none =>
    obtain ⟨b, hb, _⟩ := Filter.isMatch_eq_ok hc.addImplicitNoneReturn
      (s.definitionContext parentTags .function head.name)
    simp only []
    rw [fits_bind_of_ok (isMatch_ok.2 hb)]
    cases b <;> simp [fits_pure]
  | some e =>
    rw [hreturns] at h
    simp only []
    rw [fits_around fun text => show _ ↔ True ∧ _ by simp, true_and,
      Source.typeText_fits s.source e (h e rfl)]
    simp

theorem functionLine_returns {head} (hparams : head.params.Placed s.source.Cuts)
    (hreturns : ∀ e ∈ head.returns, e.TypeSpans s.source.Cuts) :
    Returns (s.functionLine parentTags head) ↔ '\n' ∉ head.name.toList ∧
      (∀ p ∈ head.params.all, s.source.ParamFits p) ∧
      ∀ e ∈ head.returns, s.source.TypeFits e := by
  rw [← Source.signatureText_fits hparams, ← returnsText_fits hc hreturns]
  have hstart : '\n' ∉ (if head.isAsync then "async def " else "def " : String).toList := by
    split <;> decide
  simp only [functionLine, returns_bind, returns_oneLine, String.toList_append, List.mem_append,
    not_or, Fits, hstart]
  constructor
  · rintro ⟨params, hparams, returns, hreturns,
      ⟨⟨⟨⟨⟨_, hname⟩, _⟩, hp⟩, _⟩, hr⟩, _⟩
    exact ⟨hname, ⟨params, hparams, hp⟩, returns, hreturns, hr⟩
  · rintro ⟨hname, ⟨params, hparams, hp⟩, returns, hreturns, hr⟩
    refine ⟨params, hparams, returns, hreturns, ?_⟩
    simp [hname, hp, hr]

theorem withEllipsis_returns (tags : List Tag) (name : Option String) (children : List Node) :
    Returns (s.withEllipsis parentTags tags name children) := by
  unfold withEllipsis
  split
  · exact returns_pure _
  · rw [returns_isMatch_ite hc.addRedundantEllipsis]
    exact ⟨fun _ => returns_pure _, fun _ => returns_pure _⟩

theorem branchNode_returns (line : String) (children : List Node) :
    Returns (s.branchNode parentTags line children) := by
  unfold branchNode
  rw [returns_bind_pure]
  exact withEllipsis_returns hc ..

/-- A string whose source text can be cut out never fails. -/
theorem stubString_returns (last : Option (List Tag)) {span} (hspan : s.source.Cuts span) :
    Returns (s.stubString parentTags last span) := by
  obtain ⟨cs, hcs⟩ := hspan
  have htext : Returns (s.source.spanText span) := ⟨_, Source.spanText_ok.2 ⟨cs, hcs, rfl⟩⟩
  unfold stubString
  cases last with
  | none => exact returns_bind_pure.2 htext
  | some tags =>
    exact (returns_isMatch_ite hc.keepTrailingDocstrings).2
      ⟨fun _ => returns_bind_pure.2 htext, fun _ => returns_pure _⟩

theorem functionDoc_returns {body} (hbody : PlacedAll s.source.Cuts body) :
    Returns (s.functionDoc body) := by
  cases body with
  | nil => exact returns_pure _
  | cons first rest =>
    rw [functionDoc]
    split
    · next hstring =>
      -- only a statement that is an expression is a string
      cases first with
      | expr span value => exact stubString_returns hc _ hbody.1
      | _ => simp [Stmt.isString] at hstring
    · exact returns_pure _

omit hc in
theorem sayPruned_returns (what : String) :
    Returns (do s.sayPruned what; return ([] : List Node)) :=
  (returns_bind_of_ok (sayPruned_outcome ..)).2 (returns_pure _)

theorem stubFunction_returns {span : Span} {head : FunctionHead} {body : List Stmt}
    (hplaced : (Stmt.functionDef span head body).Placed s.source.Cuts) :
    Returns (s.stubFunction parentTags head body) ↔
      (s.config.keepDefinitions.Holds (s.definitionContext parentTags .function head.name) →
        FunctionFits s.source head) := by
  obtain ⟨⟨hparams, hreturns⟩, hbody⟩ := hplaced
  unfold stubFunction
  rw [returns_isMatch_ite hc.keepDefinitions, and_iff_left fun _ => sayPruned_returns _,
    returns_bind_of_ok (Source.sayTypeComment_outcome ..)]
  refine imp_congr_right fun _ => ?_
  rw [returns_bind_and (P := Returns (s.functionLine parentTags head)), decoratorLines_returns,
    functionLine_returns hc hparams hreturns]
  · constructor
    · rintro ⟨hdecorators, hname, hparams, hreturns⟩
      exact ⟨hname, hdecorators, hparams, hreturns⟩
    · rintro ⟨hname, hdecorators, hparams, hreturns⟩
      exact ⟨hdecorators, hname, hparams, hreturns⟩
  · -- the body of the function never fails
    obtain ⟨doc, hdoc⟩ := functionDoc_returns hc hbody
    refine fun decorators => returns_bind_left fun line => ?_
    rw [returns_bind_of_ok hdoc, returns_bind_pure]
    exact withEllipsis_returns hc ..

/-! ## Imports and variables -/

theorem stubImport_returns {names} {remade : List Alias → Stmt} :
    Returns (s.stubImport parentTags names remade) ↔ s.ImportFits parentTags names remade := by
  -- which names are kept is always decided
  have hkept : ∃ kept, (s.keptAliases parentTags names).outcome = .ok kept := by
    obtain ⟨b, hb, _⟩ := Filter.isMatch_eq_ok hc.keepUnusedImports
      (s.context parentTags [.imports])
    unfold keptAliases
    cases s.used with
    | none | some used => exact ⟨_, outcome_bind_of_ok (isMatch_ok.2 hb)⟩
  obtain ⟨kept, hkept⟩ := hkept
  unfold stubImport
  rw [returns_bind_of_ok hkept, ImportFits]
  simp only [hkept, Except.ok.injEq, forall_eq']
  cases kept with
  | nil => simpa using returns_pure _
  | cons first rest =>
    simp only [List.isEmpty_cons, Bool.false_eq_true, if_false, reduceCtorEq, false_or,
      Stmt.FitsLine, returns_bind, ofResult_ok]
    refine exists_congr fun text => and_congr_right fun _ => ?_
    simp [returns_pure]

omit hc in
theorem optionType_fits {annot} (h : ∀ e ∈ annot, e.TypeSpans s.source.Cuts) :
    (∃ text, (s.optionType annot).outcome = .ok text ∧ ∀ t ∈ text, '\n' ∉ t.toList) ↔
      ∀ e ∈ annot, s.source.TypeFits e := by
  cases annot with
  | none => simp [optionType]
  | some e =>
    simp only [Option.mem_some_iff, forall_eq', ← Source.typeText_fits s.source e (h e rfl)]
    rw [optionType, map_eq_pure_bind]
    simp only [outcome_bind_ok, outcome_pure, Except.ok.injEq, Fits]
    constructor
    · rintro ⟨_, ⟨text, htext, rfl⟩, hline⟩
      exact ⟨text, htext, hline text rfl⟩
    · rintro ⟨text, htext, hline⟩
      exact ⟨_, ⟨text, htext, rfl⟩, by simpa using hline⟩

omit hc in
theorem variable_line {targets : String} {annot : Option String} {shown : String} :
    '\n' ∉ (targets ++ (annot.elim "" (": " ++ ·)) ++ shown).toList ↔
      '\n' ∉ targets.toList ∧ (∀ t ∈ annot, '\n' ∉ t.toList) ∧
      '\n' ∉ shown.toList := by
  cases annot <;> simp

omit hc in
theorem shownValue_ok (s : Session) (keep : Bool) (name : String) (value : Option String) :
    ∃ shown, (s.shownValue keep name value).outcome = .ok shown ∧
      ('\n' ∉ shown.toList ↔ (keep = true → ∀ t ∈ value, '\n' ∉ t.toList)) := by
  cases value with
  | none => exact ⟨"", rfl, by simp⟩
  | some text =>
    unfold shownValue
    cases keep with
    | true => exact ⟨" = " ++ text, rfl, by simp⟩
    | false =>
      exact ⟨" = ...", outcome_bind_of_ok (sayPruned_outcome ..), by simp⟩

theorem stubAssign_returns {targets simple annot value}
    (hannot : ∀ e ∈ annot, e.TypeSpans s.source.Cuts) :
    Returns (s.stubAssign parentTags targets simple annot value) ↔
      s.AssignFits parentTags targets simple annot value := by
  unfold stubAssign
  rw [returns_bind, AssignFits]
  refine exists_congr fun text => and_congr_right fun _ => ?_
  by_cases hdot : '.' ∈ text.toList
  · simp [hdot, returns_pure]
  simp only [List.contains_eq_mem, hdot, decide_false, Bool.false_eq_true, if_false,
    not_false_eq_true, forall_const, VariableFits, ← optionType_fits hannot]
  cases htype : (s.optionType annot).outcome with
  | error cause => simp [returns_bind, htype]
  | ok annotText =>
    rw [returns_bind_of_ok htype]
    cases hvalue : (optionLine value).outcome with
    | error cause => simp [returns_bind, hvalue]
    | ok valueText =>
      obtain ⟨keep, hkeep, hholds⟩ := Filter.isMatch_eq_ok hc.keepVariableValue
        (s.variableContext parentTags text annotText valueText)
      obtain ⟨shown, hshown, hline⟩ := s.shownValue_ok keep (variableName text) valueText
      rw [returns_bind_of_ok hvalue, returns_bind_of_ok (isMatch_ok.2 hkeep),
        returns_bind_of_ok hshown, returns_bind_left, returns_oneLine, variable_line, hline, hholds]
      · simp
      · -- the line is written before it is known whether the variable is kept
        intro line
        rw [returns_isMatch_ite hc.keepDefinitions]
        exact ⟨fun _ => returns_pure _, fun _ => sayPruned_returns _⟩

/-! ## Statements -/

omit hc in
/-- A statement that is left out without a look at it. -/
theorem ignored_returns (stmt : Stmt) : Returns (do s.sayIgnored stmt; return ([] : List Node)) :=
  (returns_bind_of_ok (sayIgnored_outcome ..)).2 (returns_pure _)

omit hc in
theorem printed_returns (stmt : Stmt) : Returns (do
      (do
        let text ← ofPrint stmt.render
        sayUnexpected (stmt.className ++ " statement (`" ++ text ++ "`)"))
      return ([] : List Node)) ↔ stmt.Prints := by
  rw [returns_bind_pure, returns_bind]
  simp [Returns, Stmt.Prints]

theorem branches_returns {header inner others} [Steady inner] [Steady others]
    (f : Node → List Node → List Node) : Returns (do
      let line ← oneLine header
      let inner ← inner
      let first ← s.branchNode parentTags line inner
      let others ← others
      return f first others) ↔
    '\n' ∉ header.toList ∧ Returns inner ∧ Returns others := by
  rw [returns_bind_and (P := Returns inner ∧ Returns others), returns_oneLine]
  refine fun line => returns_bind_and fun nodes => ?_
  rw [returns_bind_and fun first => returns_bind_pure, and_iff_right (branchNode_returns hc ..)]

theorem ifNodes_returns {condition : String} {inner others : StubM (List Node)} [Steady inner]
    [Steady others] (outer : List Node) :
    Returns (s.ifNodes parentTags condition outer inner others) ↔
      (s.config.keepIfStatements.Holds (s.context parentTags [.if]) →
        '\n' ∉ condition.toList ∧ Returns inner ∧ Returns others) := by
  rw [ifNodes, returns_isMatch_ite hc.keepIfStatements, and_iff_left fun _ => returns_pure _,
    branches_returns hc]
  simp

end Returns

mutual

theorem stub_returns (hc : s.config.Readable) (parentTags : List Tag) (last : Option (List Tag)) :
    (stmt : Stmt) → stmt.Placed s.source.Cuts →
      (Returns (s.stub parentTags last stmt) ↔ s.Stubbable parentTags stmt)
  | .imports .., _ | .importFrom .., _ => by
    rw [stub, Stubbable, stubImport_returns hc]
  | .assign .., _ => by
    rw [stub, Stubbable, returns_bind_of_ok (Source.sayTypeComment_outcome ..)]
    exact stubAssign_returns hc (by simp)
  | .annAssign _ _ annot _ _, h => by
    rw [stub, Stubbable]
    exact stubAssign_returns hc (by simpa [Stmt.Placed] using h)
  | .functionDef span head body, h => by
    rw [stub, Stubbable, stubFunction_returns hc h]
  | .classDef _ head body, h => by
    rw [stub, Stubbable, ← stubAll_returns hc [.classDef] none body h,
      returns_isMatch_ite hc.keepDefinitions, and_iff_left fun _ => sayPruned_returns _]
    refine imp_congr_right fun _ => ?_
    rw [returns_bind_and (P := Returns (classLine head) ∧
      Returns (s.stubAll [.classDef] none body)), decoratorLines_returns, classLine_returns]
    · constructor
      · rintro ⟨hdecorators, ⟨hname, hbases, hkeywords⟩, hbody⟩
        exact ⟨⟨hname, hdecorators, hbases, hkeywords⟩, hbody⟩
      · rintro ⟨⟨hname, hdecorators, hbases, hkeywords⟩, hbody⟩
        exact ⟨hdecorators, ⟨hname, hbases, hkeywords⟩, hbody⟩
    · refine fun decorators => returns_bind_and fun line => returns_bind_left fun inner => ?_
      rw [returns_bind_pure]
      exact withEllipsis_returns hc ..
  | .expr span value, h => by
    simp only [stub, Stubbable, iff_true]
    split
    · exact stubString_returns hc last h
    · exact ignored_returns _
  | .ifElse _ test body orelse, h => by
    rw [stub, Stubbable, ← stubAll_returns hc parentTags last body h.1,
      ← stubAll_returns hc [.if] none body h.1, ← stubElse_returns hc parentTags orelse h.2,
      returns_bind]
    refine exists_congr fun condition => and_congr exprLine_ok ?_
    obtain ⟨flatten, hflatten, hholds⟩ := Filter.isMatch_eq_ok hc.flattenIf
      (s.conditionContext parentTags condition)
    rw [returns_bind_of_ok (isMatch_ok.2 hflatten), ← hholds]
    cases flatten with
    | true =>
      simp only [if_true]
      rw [returns_bind_and fun outer => ifNodes_returns hc outer]
      simp [returns_pure]
    | false =>
      simp only [Bool.false_eq_true, if_false]
      rw [ifNodes_returns hc]
      simp
  | .tryBlock _ _ body _ _ _, h => by
    rw [stub, Stubbable, stubAll_returns hc parentTags last body h]
  | .withBlock _ true _ body _, h => by
    rw [stub, Stubbable]
    exact printed_returns _
  | .withBlock _ false _ body _, h => by
    rw [stub, Stubbable, ← stubAll_returns hc parentTags last body h]
    rfl
  | .forLoop _ true .., _ | .ret .., _ => by
    simp only [stub, Stubbable]
    exact printed_returns _
  | .global .., _ | .nonlocal .., _ | .break _, _ | .continue _, _ => by
    simp only [stub, Stubbable, iff_true]
    exact (printed_returns _).2 ⟨_, rfl⟩
  | .pass _, _ | .delete .., _ | .augAssign .., _ | .forLoop _ false .., _ | .whileLoop .., _
  | .matchCases .., _ | .raise .., _ | .assert .., _ => by
    simp only [stub, Stubbable, iff_true]
    exact ignored_returns _

theorem stubAll_returns (hc : s.config.Readable) (parentTags : List Tag)
    (last : Option (List Tag)) : (stmts : List Stmt) → PlacedAll s.source.Cuts stmts →
      (Returns (s.stubAll parentTags last stmts) ↔ s.StubbableAll parentTags stmts)
  | [], _ => by simpa [stubAll, StubbableAll] using returns_pure _
  | stmt :: rest, h => by
    rw [stubAll, StubbableAll, returns_bind_and (P := s.StubbableAll parentTags rest),
      stub_returns hc parentTags last stmt h.1]
    intro nodes
    rw [returns_bind_pure]
    exact stubAll_returns hc parentTags _ rest h.2

theorem stubElse_returns (hc : s.config.Readable) (parentTags : List Tag) :
    (stmts : List Stmt) → PlacedAll s.source.Cuts stmts →
      (Returns (s.stubElse parentTags stmts) ↔ s.StubbableElse stmts)
  | [], _ => by simpa [stubElse, StubbableElse] using returns_pure _
  | stmt :: rest, h => by
    unfold stubElse
    split
    · next heq => cases heq
    · next span test body orelse heq =>
      cases heq
      rw [StubbableElse, ← stubAll_returns hc [.if] none body h.1.1,
        ← stubElse_returns hc parentTags orelse h.1.2, returns_bind]
      simp only [branches_returns hc, exprLine_ok, Expr.FitsLine]
      constructor
      · rintro ⟨condition, htest, hline, hbranches⟩
        exact ⟨⟨condition, htest, by simpa using hline⟩, hbranches⟩
      · rintro ⟨⟨condition, htest, hline⟩, hbranches⟩
        exact ⟨condition, htest, by simpa using hline, hbranches⟩
    · next heq =>
      cases heq
      rw [StubbableElse, ← stub_returns hc [.if] none stmt h.1, returns_bind_and]
      · intro nodes
        rw [← stubAll_returns hc [.if] (Node.lastTags nodes) rest h.2, returns_bind_left]
        intro more
        rw [returns_bind_pure]
        exact branchNode_returns hc ..
      · assumption

end

end Session

/-! ## Modules -/

theorem Source.readModule_placed {source : Source} {m : Module}
    (h : source.readModule = .ok m) : PlacedAll source.Cuts m.body := by
  unfold Source.readModule at h
  cases hdialect : dialectOf source.version source.typeComments with
  | error cause =>
    rw [hdialect] at h
    cases h
  | ok d =>
    simp only [hdialect, bind, Except.bind] at h
    split at h
    · next m' hparse =>
      cases h
      exact parseModule_placed hparse fun _ _ htokens _ hspan => Source.cut_of_stretch htokens hspan
    · cases h

namespace Stub

theorem output_returns {s : Session} {m : Module} (hc : s.config.Readable)
    (hplaced : PlacedAll s.source.Cuts m.body) :
    Returns (s.output m) ↔ s.StubbableAll [.module] m.body := by
  rw [← Session.stubAll_returns hc _ none _ hplaced, Session.output, returns_bind_pure,
    Session.stubModule]
  split
  · rw [returns_bind_of_ok (sayUnexpected_outcome _), returns_bind_pure]
  · rw [returns_bind_pure]

theorem pass_outcome (config : ValidConfig) (debug : Bool) {source m}
    (hread : source.readModule = .ok m) : (pass config debug source none false).outcome
      = (Session.output { source, config, debug, used := none } m).outcome.map (·, none) := by
  unfold pass
  simp only [Bool.false_eq_true, if_false, pure_bind]
  rw [outcome_bind_of_ok (ofResult_ok.2 hread), outcome_bind]
  cases (Session.output { source, config, debug, used := none } m).outcome <;> rfl

/-- A pass over a module returns a text, and this without a word about the names in use, exactly if
the module can be stubbed. -/
theorem pass_returns_iff {config : ValidConfig} {source : Source} {m : Module}
    (hconfig : config.Readable) (hread : source.readModule = .ok m) (debug : Bool) :
    (∃ text, ∀ log, ∃ more, (pass config debug source none false).run.run log
      = (.ok (text, none), log ++ more)) ↔
    Session.StubbableAll { source, config, debug, used := none } [.module] m.body := by
  rw [← output_returns hconfig (Source.readModule_placed hread), Returns]
  have hpass := pass_outcome config debug hread
  constructor
  · rintro ⟨text, h⟩
    obtain ⟨more, h⟩ := h []
    have hok : (pass config debug source none false).outcome = .ok (text, none) := by
      rw [outcome, h]
    rw [hpass] at hok
    cases hout : (Session.output { source, config, debug, used := none } m).outcome with
    | error cause =>
      rw [hout] at hok
      cases hok
    | ok text => exact ⟨text, rfl⟩
  · rintro ⟨text, htext⟩
    refine ⟨text, fun log => ⟨(pass config debug source none false).remarks, ?_⟩⟩
    rw [(pass_steady config debug source none false).eq log, hpass, htext]
    rfl

/-! ## Samples -/

instance decidableEqExcept {ε α : Type} [DecidableEq ε] [DecidableEq α] :
    DecidableEq (Except ε α)
  | .ok a, .ok b => decidable_of_iff (a = b) (by simp)
  | .error a, .error b => decidable_of_iff (a = b) (by simp)
  | .ok _, .error _ => isFalse nofun
  | .error _, .ok _ => isFalse nofun

/-- Leaves out the names with a leading underscore. -/
def keepPublic : Config :=
  { keepDefinitions := some (.expr "not name_is('_.*')")
    keepTrailingDocstrings := some (.flag true)
    addImplicitNoneReturn := some (.flag false)
    flattenIf := some (.flag false)
    keepVariableValue := some (.flag true) }

def sampleSource (text : String) : Source :=
  { text := text.toList, path := "sample.py", version := none, typeComments := false }

/-- How a pass over a text ends, if the text can be read. -/
def sampleOutcome (text : String) : Option (Except StubError String) :=
  match keepPublic.validate, (sampleSource text).readModule with
  | .ok config, .ok _ =>
    if config.Readable then
      some ((pass config false (sampleSource text) none false).outcome.map (·.1))
    else none
  | _, _ => none

theorem sampleOutcome_eq_some {text r} (h : sampleOutcome text = some r) :
    ∃ config m, keepPublic.validate = .ok config ∧ config.Readable ∧
      (sampleSource text).readModule = .ok m ∧
      (pass config false (sampleSource text) none false).outcome.map (·.1) = r := by
  unfold sampleOutcome at h
  split at h
  · next config m hconfig hm =>
    split at h
    · next hreadable => exact ⟨config, m, hconfig, hreadable, hm, Option.some.inj h⟩
    · cases h
  · cases h

def keywordSample : String := "class A(B, k=1):\n    def f(self) -> 'int': ...\n"

theorem pass_returns_on_sample :
    ∃ config m, keepPublic.validate = .ok config ∧ config.Readable ∧
      (sampleSource keywordSample).readModule = .ok m ∧
      ∃ text, ∀ log, ∃ more,
      (pass config false (sampleSource keywordSample) none false).run.run log
        = (.ok (text, none), log ++ more) := by
  have hsample : sampleOutcome keywordSample
      = some (.ok "class A(B, k = 1):\n    def f(self) -> int:\n        ...\n") := by
    decide +kernel
  obtain ⟨config, m, hconfig, hreadable, hm, hout⟩ := sampleOutcome_eq_some hsample
  refine ⟨config, m, hconfig, hreadable, hm, (pass_returns_iff hreadable hm false).2 ?_⟩
  generalize keywordSample = text at hm hout
  rw [← output_returns hreadable (Source.readModule_placed hm)]
  rw [pass_outcome config false hm] at hout
  cases hsession : (Session.output ⟨sampleSource text, config, false, none⟩ m).outcome with
  | error cause =>
    rw [hsession] at hout
    cases hout
  | ok text => exact ⟨text, hsession⟩

/-- A class that unpacks keywords and a `Literal` that is written in several lines are read but not
stubbed. -/
theorem pass_fails_on_samples :
    (∃ config m, keepPublic.validate = .ok config ∧ config.Readable ∧
      (sampleSource "class A(**kw): ...\n").readModule = .ok m ∧
      (pass config false (sampleSource "class A(**kw): ...\n") none false).outcome.map (·.1)
        = .error .namelessKeyword) ∧
    ∃ config m, keepPublic.validate = .ok config ∧ config.Readable ∧
      (sampleSource "x: Literal[1,\n 2] = 3\n").readModule = .ok m ∧
      (pass config false (sampleSource "x: Literal[1,\n 2] = 3\n") none false).outcome.map (·.1)
        = .error (.severalLines "x: Literal[1,\n 2] = 3") :=
  ⟨sampleOutcome_eq_some (by decide +kernel), sampleOutcome_eq_some (by decide +kernel)⟩

end Stub

end TypeStub
