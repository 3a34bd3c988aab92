import TypeStub.Proofs.Grammar.Keeping
/-!
# Where types and strings stand

The source text of some types and of all documentation strings is needed later, so their spans have
to be stretches of tokens of the source. Types are followed as far as they are taken apart: through
subscripts, tuples, lists and unions.
-/

namespace TypeStub.Syntax

open Parse

/-! ## Types -/

mutual

/-- All subscripts that occur as types in an expression have spans with the property. -/
def Expr.TypeSpans (P : Span → Prop) : Expr → Prop
  | .subscript span _ index => P span ∧ index.TypeSpans P
  | .tuple _ elts => TypeSpansAll P elts
  | .list _ elts => TypeSpansAll P elts
  | .binOp _ left _ right => left.TypeSpans P ∧ right.TypeSpans P
  | _ => True

def TypeSpansAll (P : Span → Prop) : List Expr → Prop
  | [] => True
  | e :: rest => e.TypeSpans P ∧ TypeSpansAll P rest

end

variable {P : Span → Prop} {d : Dialect}

theorem typeSpansAll_iff {es} : TypeSpansAll P es ↔ ∀ e ∈ es, e.TypeSpans P := by
  induction es with
  | nil => simp [TypeSpansAll]
  | cons e es ih => simp [TypeSpansAll, ih]

mutual

theorem Expr.TypeSpans.toTarget? {kind} :
    ∀ {e t : Expr}, e.TypeSpans P → e.toTarget? kind = some t → t.TypeSpans P
  | .name .., t, _, ht | .attribute .., t, _, ht => by
    cases ht
    trivial
  | .subscript .., t, he, ht => by
    cases ht
    exact he
  | .starred _ v, t, _, ht => by
    cases kind with
    | delete => cases ht
    | bind =>
      obtain ⟨u, _, rfl⟩ := Option.map_eq_some_iff.1 ht
      trivial
  | .tuple _ elts, t, he, ht | .list _ elts, t, he, ht => by
    obtain ⟨ts, hts, rfl⟩ := Option.map_eq_some_iff.1 ht
    exact TypeSpansAll.toTargets? he hts
  | .boolOp .., _, _, ht | .named .., _, _, ht | .binOp .., _, _, ht | .unaryOp .., _, _, ht
  | .lambda .., _, _, ht | .ifExp .., _, _, ht | .dict .., _, _, ht | .set .., _, _, ht
  | .listComp .., _, _, ht | .setComp .., _, _, ht | .dictComp .., _, _, ht
  | .generator .., _, _, ht | .await .., _, _, ht | .yield .., _, _, ht
  | .yieldFrom .., _, _, ht | .compare .., _, _, ht | .call .., _, _, ht
  | .formatted .., _, _, ht | .joined .., _, _, ht | .constant .., _, _, ht
  | .slice .., _, _, ht => by cases ht

theorem TypeSpansAll.toTargets? {kind} :
    ∀ {es ts : List Expr}, TypeSpansAll P es → Syntax.toTargets? kind es = some ts →
      TypeSpansAll P ts
  | [], ts, _, hts => by
    cases hts
    trivial
  | e :: es, ts, he, hts => by
    rw [Syntax.toTargets?] at hts
    split at hts
    · next t ts' ht hts' =>
      cases hts
      exact ⟨he.1.toTarget? ht, he.2.toTargets? hts'⟩
    · cases hts

end

/-- The spans of stretches of tokens with a property, none of which is layout. -/
def Stretch (T : Token → Prop) (span : Span) : Prop :=
  ∃ ts, ts ≠ [] ∧ (∀ t ∈ ts, T t ∧ isLayout t.kind = false) ∧ span = spanOf ts

def ParamItem.annot? : ParamItem → Option Expr
  | .slash | .star => none
  | .vararg p | .kwarg p | .plain p _ => p.annot

/-- What a phrase stands for, with types where they are. -/
def Tree.Placed (P : Span → Prop) : Tree → Prop
  | .expr e => e.TypeSpans P
  | .item i => ∀ e, i.annot? = some e → e.TypeSpans P
  | _ => True

theorem concatLiterals_typeSpans {r span literals e} (h : concatLiterals r span literals = some e) :
    e.TypeSpans P := by
  cases literals with
  | nil => cases h
  | cons first rest =>
    simp only [concatLiterals] at h
    split at h
    · obtain ⟨parts, _, h⟩ := Option.bind_eq_some_iff.1 h
      cases h
      trivial
    · split at h
      · cases h
      · obtain ⟨pieces, _, h⟩ := Option.bind_eq_some_iff.1 h
        split at h <;>
        · cases h
          trivial

variable {T : Token → Prop} (hP : ∀ span, Stretch T span → P span)
include hP

theorem Phrase.placed {f ts xs} (h : Phrase d f ts xs) :
    (∀ t ∈ ts, T t ∧ isLayout t.kind = false) → ∀ x ∈ xs, x.Placed P := by
  induction h with
  | strings h => exact fun _ => by simpa [Tree.Placed] using concatLiterals_typeSpans h
  | targets _ ht ih =>
    intro hT
    simp only [List.mem_singleton, forall_eq] at ih ⊢
    exact (ih hT).toTarget? ht
  | subscript _ _ _ _ _ ihi =>
    intro hT
    simp only [List.mem_singleton, forall_eq] at ihi ⊢
    exact ⟨hP _ ⟨_, by simp, hT, rfl⟩, ihi fun t ht => hT t (by simp [ht])⟩
  | binary _ _ _ _ _ ihl ihr | power _ _ _ ihl ihr =>
    intro hT
    simp only [List.mem_singleton, forall_eq] at ihl ihr ⊢
    exact ⟨ihl fun t ht => hT t (by simp [ht]), ihr fun t ht => hT t (by simp [ht])⟩
  | several _ ih | indices _ ih | starredIndex _ _ ih =>
    intro hT
    simpa [Tree.Placed, Expr.TypeSpans, typeSpansAll_iff] using ih hT
  | tuple _ _ _ ih | list _ _ _ ih =>
    intro hT
    simpa [Tree.Placed, Expr.TypeSpans, typeSpansAll_iff]
      using ih fun t ht => hT t (by simp [ht])
  | group _ _ _ _ ih => exact fun hT => ih fun t ht => hT t (by simp [ht])
  | single _ ih | unstarred _ ih | unnamed _ ih | arguments _ ih | bound _ ih | plainSlice _ ih
  | index _ _ ih | atom _ ih | lift _ _ _ ih | lastParam _ ih => exact ih
  | further _ _ ih | condition _ _ ih | step _ _ ih | operand _ _ ih | annot _ _ ih
  | default _ _ ih => exact fun hT => ih fun t ht => hT t (by simp [ht])
  | manyCons _ _ ih ihs | moreParams _ _ ih ihs | commas _ _ _ _ ih ihs =>
    intro hT
    exact List.forall_mem_cons.2
      ⟨ih (fun t ht => hT t (by simp [ht])) _ (by simp), ihs fun t ht => hT t (by simp [ht])⟩
  | vararg _ _ _ _ ih | kwarg _ _ _ _ ih | plain _ _ _ _ ih _ =>
    intro hT
    have hannot := ih fun t ht => hT t (by simp [ht])
    simpa [Tree.Placed, ParamItem.annot?] using hannot
  | manyNil | noArguments | noBound | noStep | noAnnot | noDefault | noParams =>
    exact fun _ => List.forall_mem_nil _
  | slash | bareStar => exact fun _ => List.forall_mem_singleton.2 fun _ h => nomatch h
  | _ => exact fun _ => List.forall_mem_singleton.2 trivial

theorem Phrase.placedExpr {f ts e} (h : Spells d f ts e)
    (hT : ∀ t ∈ ts, T t ∧ isLayout t.kind = false) : e.TypeSpans P :=
  h.placed hP hT (.expr e) (by simp)

omit hP

/-! ## Parameters -/

def Params.all (ps : Params Expr) : List (Param Expr) :=
  ps.posOnly ++ ps.args ++ ps.vararg.toList ++ ps.kwOnly ++ ps.kwarg.toList

def ParamState.all (st : ParamState) : List (Param Expr) :=
  st.positional.map (·.1) ++ st.vararg.toList ++ st.kwOnly.map (·.1) ++ st.kwarg.toList

theorem ParamState.all_toParams (st : ParamState) : st.toParams.all = st.all := by
  simp only [Params.all, ParamState.all, ParamState.toParams, List.splitAt_eq, ← List.map_append,
    List.take_append_drop]

theorem ParamState.mem_all_of_add {st st' : ParamState} {i : ParamItem} {p : Param Expr}
    (h : st.add i = some st') (hp : p ∈ st'.all) : p ∈ st.all ∨ i.annot? = p.annot := by
  cases i with
  | slash | star =>
    simp only [ParamState.add] at h
    split at h
    · cases h
    · cases h
      exact .inl hp
  | vararg q =>
    simp only [ParamState.add] at h
    split at h
    · cases h
    · cases h
      simp only [ParamState.all, List.mem_append, Option.toList_some, List.mem_singleton] at hp ⊢
      grind [ParamItem.annot?]
  | kwarg q =>
    cases h
    simp only [ParamState.all, List.mem_append, Option.toList_some, List.mem_singleton] at hp ⊢
    grind [ParamItem.annot?]
  | plain q value =>
    simp only [ParamState.add] at h
    repeat' split at h
    all_goals cases h
    all_goals
      simp only [ParamState.all, List.map_append, List.mem_append, List.map_cons, List.map_nil,
        List.mem_singleton] at hp ⊢
      grind [ParamItem.annot?]

theorem ParamState.mem_all_of_addAll {items} {st st' : ParamState} {p : Param Expr}
    (h : st.addAll items = some st') (hp : p ∈ st'.all) :
    p ∈ st.all ∨ ∃ i ∈ items, i.annot? = p.annot := by
  induction items generalizing st with
  | nil =>
    cases h
    exact .inl hp
  | cons i items ih =>
    obtain ⟨st₁, hadd, h⟩ := Option.bind_eq_some_iff.1 h
    rcases ih h with hp | ⟨j, hj, hp⟩
    · rcases ParamState.mem_all_of_add hadd hp with hp | hp
      · exact .inl hp
      · exact .inr ⟨i, by simp, hp⟩
    · exact .inr ⟨j, by simp [hj], hp⟩

/-- The types of parameters are where they are, and every parameter that is given by name only has
a place for its default value. -/
structure Params.Placed (P : Span → Prop) (ps : Params Expr) : Prop where
  types : ∀ p ∈ ps.all, ∀ e ∈ p.annot, e.TypeSpans P
  defaults : ps.kwDefaults.length = ps.kwOnly.length

include hP in
theorem ParamsOf.placed {style ts} {ps : Params Expr} (h : ParamsOf d style ts ps)
    (hT : ∀ t ∈ ts, T t ∧ isLayout t.kind = false) : ps.Placed P := by
  obtain ⟨items, st, hts, hst, _, rfl⟩ := h
  refine ⟨fun p hp e he => ?_, by simp [ParamState.toParams]⟩
  rw [ParamState.all_toParams] at hp
  rcases ParamState.mem_all_of_addAll hst hp with hp | ⟨i, hi, hp⟩
  · simp [ParamState.all, ParamState.empty] at hp
  · exact hts.placed hP hT (.item i) (List.mem_map_of_mem hi) e (hp.trans he)

/-! ## Statements -/

mutual

/-- The types and the strings of a statement are where they are, as far as statements are
followed: into definitions, branches, and the first parts of `try` and `with`. -/
def Stmt.Placed (P : Span → Prop) : Stmt → Prop
  | .functionDef _ head body =>
    (head.params.Placed P ∧ ∀ e ∈ head.returns, e.TypeSpans P) ∧ PlacedAll P body
  | .classDef _ _ body => PlacedAll P body
  | .annAssign _ _ annot _ _ => annot.TypeSpans P
  | .expr span _ => P span
  | .ifElse _ _ body orelse => PlacedAll P body ∧ PlacedAll P orelse
  | .tryBlock _ _ body .. => PlacedAll P body
  | .withBlock _ _ _ body _ => PlacedAll P body
  | _ => True

def PlacedAll (P : Span → Prop) : List Stmt → Prop
  | [] => True
  | stmt :: rest => stmt.Placed P ∧ PlacedAll P rest

end

theorem placedAll_iff {body} : PlacedAll P body ↔ ∀ s ∈ body, s.Placed P := by
  induction body with
  | nil => simp [PlacedAll]
  | cons s body ih => simp [PlacedAll, ih]

section Statements

open Keeps

variable {r : Rules} [hdrop : RulesDrop r]

-- the size of an instance doubles with each step of a rule
set_option synthInstance.maxSize 100000

instance : Drops r.expression := .ofSound r RulesSound.expression
instance : Drops r.bitOr := .ofSound r RulesSound.bitOr
instance : Drops (starNamedExpression r) := .ofSound r element_reads
instance : Drops (moreElements r.bitOr) := .ofSound r (moreElements_reads RulesSound.bitOr)
instance : Drops (moreElements (starNamedExpression r)) :=
  .ofSound r (moreElements_reads element_reads)
instance : Drops (starExpressions r r.expression) :=
  .ofSound r (starExpressions_reads RulesSound.expression)
instance : Drops (namedExpression r) := .ofSound r namedExpression_reads
instance : Drops (yieldExpression r) := .ofSound r yieldExpression_reads
instance : Drops (bindingTargets r) := .ofSound r bindingTargets_reads
instance {start} : Drops (arguments r start false) :=
  .ofSound r (R := (CallBrackets · false default)) fun _ _ _ =>
    arguments_reads fun h => absurd h Bool.false_ne_true
instance {start} : Drops (starred start r.bitOr) := by unfold starred; infer_instance
instance : Drops (assignedValue r) := by unfold assignedValue; infer_instance

instance : Drops typeComment := by
  refine .bind fun _ => ?_
  split <;> infer_instance

theorem assignmentRest_drops : ∀ fuel targets, Drops (assignmentRest r fuel targets)
  | 0, _ => inferInstanceAs (Drops failure)
  | fuel + 1, _ => by
    have := assignmentRest_drops fuel
    refine .bind fun e => .bind fun _ => ?_
    cases e.toTarget? .bind <;> infer_instance

variable {start : Place}

/-- The rest of a statement whose kind does not matter. -/
theorem finish {f : Span → Stmt} (hf : ∀ span, (f span).Placed P) :
    Keeps T (do return f (← spanFrom start)) (Stmt.Placed P) :=
  andThen fun _ => pure (hf _)

include hP in
theorem expressionStatement_keeps : Keeps T (expressionStatement r) (Stmt.Placed P) := by
  obtain ⟨d, hr⟩ := hdrop.sound
  intro s stmt s' hs h
  rw [expressionStatement, here_bind, at?_bind] at h
  obtain ⟨e, ts, s₁, h₁, he, h⟩ := of_bind (starExpressions_reads expression_reads) h
  obtain ⟨hs₁, hts⟩ := h₁.property hs
  rw [peek_bind] at h
  generalize headKind s₁.tokens = k at h
  split at h
  · cases ht : e.toTarget? .bind with
    | none => simp only [ht] at h; cases h
    | some t =>
      simp only [ht] at h
      refine (andThen fun _ => ?_ : Keeps T _ (Stmt.Placed P)) s₁ stmt s' hs₁ h
      have : Drops fun s : Input => assignmentRest r (s.tokens.length + 1) [t] s :=
        ⟨(assignmentRest_drops ..).suffix⟩
      exact andThen fun _ => andThen fun _ => finish fun _ => trivial
  · cases ht : e.toSingleTarget? with
    | none => simp only [ht] at h; cases h
    | some t =>
      simp only [ht] at h
      refine (andThen fun _ => ?_ : Keeps T _ (Stmt.Placed P)) s₁ stmt s' hs₁ h
      refine (ofReads hr.expression fun _ _ hT he => he.placedExpr hP hT).bind fun annot hannot =>
        ?_
      exact andThen fun _ => ite
        (andThen fun _ => andThen fun _ => finish fun _ => hannot)
        (andThen fun _ => andThen fun _ => finish fun _ => hannot)
  · cases hop : augmentedOp? k with
    | none =>
      simp only [hop, spanFrom_bind, h₁.span (he.ne_nil rfl)] at h
      cases h
      exact ⟨hs₁, hP _ ⟨ts, he.ne_nil rfl, hts, rfl⟩⟩
    | some op =>
      simp only [hop] at h
      cases ht : e.toSingleTarget? with
      | none => simp only [ht] at h; cases h
      | some t =>
        simp only [ht] at h
        refine (andThen fun _ => ?_ : Keeps T _ (Stmt.Placed P)) s₁ stmt s' hs₁ h
        exact when (andThen fun _ => finish fun _ => trivial)

instance {α : Type} {item : Parse α} [Drops item] : Drops (commaSeparated item) := by
  unfold commaSeparated
  infer_instance

instance : Drops moduleName := by unfold moduleName; infer_instance
instance : Drops asName := by unfold asName; infer_instance
instance : Drops importedName := by unfold importedName; infer_instance
instance : Drops relativeLevel := by unfold relativeLevel; infer_instance
instance : Drops bracketedNames := by unfold bracketedNames; infer_instance

theorem importStatement_keeps : Keeps T (importStatement start) (Stmt.Placed P) :=
  andThen fun _ => andThen fun _ => finish fun _ => trivial

theorem importFromStatement_keeps : Keeps T (importFromStatement start) (Stmt.Placed P) := by
  -- what follows the module is the same for all ways to write it
  refine andThen fun _ => andThen fun _ => andThen fun _ => ite
    (ite (andThen ?_) (andThen ?_)) (andThen ?_) <;>
  · refine fun _ => andThen fun _ => andThen fun _ => andThen fun _ => ?_
    exact ite (andThen fun _ => finish fun _ => trivial)
      (ite (andThen fun _ => finish fun _ => trivial) (andThen fun _ => finish fun _ => trivial))

theorem raiseStatement_keeps : Keeps T (raiseStatement r start) (Stmt.Placed P) := by
  refine andThen fun _ => andThen fun _ => ?_
  split
  iterate 2 exact finish fun _ => trivial
  · exact andThen fun _ => andThen fun _ => ite (andThen fun _ => finish fun _ => trivial)
      (andThen fun _ => finish fun _ => trivial)

theorem returnStatement_keeps : Keeps T (returnStatement r start) (Stmt.Placed P) :=
  andThen fun _ => andThen fun _ => ite (finish fun _ => trivial)
    (andThen fun _ => finish fun _ => trivial)

theorem deleteStatement_keeps : Keeps T (deleteStatement r start) (Stmt.Placed P) := by
  refine andThen fun _ => andThen fun first => andThen fun x => ?_
  obtain ⟨rest, _⟩ := x
  simp only
  cases toTargets? .delete (first :: rest) with
  | none => exact failure
  | some targets => exact finish fun _ => trivial

theorem assertStatement_keeps : Keeps T (assertStatement r start) (Stmt.Placed P) :=
  andThen fun _ => andThen fun _ => andThen fun _ => ite (andThen fun _ => finish fun _ => trivial)
    (andThen fun _ => finish fun _ => trivial)

include hP in
theorem simpleStatement_keeps : Keeps T (simpleStatement r) (Stmt.Placed P) := by
  have hword : ∀ {start : Place} {f : Span → Stmt}, (∀ span, (f span).Placed P) →
      Keeps T (do skip; return f (← Parse.spanFrom start)) (Stmt.Placed P) :=
    fun hf => andThen fun _ => finish hf
  have hnames : ∀ {start : Place} {f : List String → Span → Stmt},
      (∀ names span, (f names span).Placed P) →
      Keeps T (do
        skip
        let names ← commaSeparated Parse.name
        return f names (← Parse.spanFrom start)) (Stmt.Placed P) :=
    fun hf => andThen fun _ => andThen fun _ => finish (hf _)
  intro s stmt s' hs h
  rw [simpleStatement, here_bind, peek_bind] at h
  generalize headKind s.tokens = k at h
  split at h
  · exact returnStatement_keeps s stmt s' hs h
  · exact importStatement_keeps s stmt s' hs h
  · exact importFromStatement_keeps s stmt s' hs h
  · exact raiseStatement_keeps s stmt s' hs h
  · exact deleteStatement_keeps s stmt s' hs h
  · exact assertStatement_keeps s stmt s' hs h
  · obtain ⟨d, hr⟩ := hdrop.sound
    obtain ⟨e, ts, s₁, h₁, he, h⟩ := of_bind yieldExpression_reads h
    rw [spanFrom_bind, h₁.span (he.ne_nil rfl)] at h
    cases h
    obtain ⟨hs₁, hts⟩ := h₁.property hs
    exact ⟨hs₁, hP _ ⟨ts, he.ne_nil rfl, hts, rfl⟩⟩
  · exact hword (f := .pass) (fun _ => trivial) s stmt s' hs h
  · exact hword (f := .break) (fun _ => trivial) s stmt s' hs h
  · exact hword (f := .continue) (fun _ => trivial) s stmt s' hs h
  · exact hnames (f := fun names span => .global span names) (fun _ _ => trivial) s stmt s' hs h
  · exact hnames (f := fun names span => .nonlocal span names) (fun _ _ => trivial) s stmt s' hs h
  · exact expressionStatement_keeps hP s stmt s' hs h

include hP in
theorem simpleStatements_keeps : Keeps T (simpleStatements r) (PlacedAll P) := by
  refine (simpleStatement_keeps hP).bind fun first hfirst => (Keeps.many ?_).bind fun rest hrest =>
    andThen fun _ => andThen fun _ => pure ⟨hfirst, placedAll_iff.2 hrest⟩
  exact andThen fun _ => ite
    (andThen fun _ => ite nothing
      (andThen fun _ => (simpleStatement_keeps hP).bind fun _ h => found h))
    nothing

instance : Drops functionTypeComment where
  suffix h := by
    unfold functionTypeComment at h
    split at h
    · cases h
      exact List.drop_suffix ..
    · exact Drops.suffix h

instance : Drops (withItem r) := by
  have htarget : ∀ context e : Expr, Drops (do
      match e.toTarget? .bind with
      | some t => return ({ context, target := some t } : WithItem)
      | none => failure) := by
    intro _ e
    cases e.toTarget? .bind <;> infer_instance
  unfold withItem
  infer_instance

instance : Drops (bracketedItems r) := by unfold bracketedItems; infer_instance
instance : Drops (matchHead r) := by unfold matchHead; infer_instance

/-! ## Statements with blocks -/

/-- What is known of the rules that statements call. -/
class RulesPlaced (T : Token → Prop) (P : outParam (Span → Prop)) (r : Rules) : Prop
    extends RulesDrop r where
  stretch : ∀ span, Stretch T span → P span
  block : Keeps T r.block (PlacedAll P)

end Statements

section Blocks

open Keeps

variable {r : Rules} [hr : RulesPlaced T P r] {start : Place}

set_option synthInstance.maxSize 100000

theorem colonBlock_keeps : Keeps T (colonBlock r) (PlacedAll P) :=
  andThen fun _ => hr.block

theorem optionalBlock_keeps (word : String) :
    Keeps T (optionalBlock r word) (PlacedAll P) :=
  andThen fun _ => ite colonBlock_keeps (pure trivial)

theorem functionDefinition_keeps (decorators : List Expr) :
    Keeps T (functionDefinition r decorators) (Stmt.Placed P) := by
  obtain ⟨d, hsound⟩ := hr.sound
  have hannot : Keeps T r.expression fun e => e.TypeSpans P :=
    ofReads hsound.expression fun _ _ hT he => he.placedExpr hr.stretch hT
  refine andThen fun _ => andThen fun _ => andThen fun _ => andThen fun _ => andThen fun _ => ?_
  refine (ofReads (params_reads .function) fun _ _ hT h => h.placed hr.stretch hT).bind
    fun ps hps => when (andThen fun _ => andThen fun _ => ?_)
  -- the block and what follows it, once the head has been read
  refine ite (hannot.mapSome.bind ?_) ((nothing (Q := Expr.TypeSpans P)).bind ?_) <;>
  · refine fun _ hreturns => andThen fun _ => andThen fun _ => ?_
    exact hr.block.bind fun _ hbody => when (finish fun _ => ⟨⟨hps, hreturns⟩, hbody⟩)

theorem classDefinition_keeps (decorators : List Expr) :
    Keeps T (classDefinition r decorators) (Stmt.Placed P) := by
  refine andThen fun _ => andThen fun _ => andThen fun _ => andThen fun _ =>
    ite (andThen ?_) (andThen ?_) <;>
  · exact fun _ => colonBlock_keeps.bind fun _ hbody => finish fun _ => hbody

theorem decorated_keeps : Keeps T (decorated r) (Stmt.Placed P) := by
  refine andThen fun decorators => andThen fun _ => ?_
  split
  · exact classDefinition_keeps decorators
  iterate 2 exact functionDefinition_keeps decorators
  · exact failure

theorem nestBranches_placed {last} (hlast : PlacedAll P last) :
    ∀ {branches : List (Span × Expr × List Stmt)}, (∀ b ∈ branches, PlacedAll P b.2.2) →
      PlacedAll P (nestBranches last branches)
  | [], _ => hlast
  | b :: branches, h =>
    ⟨⟨h b (by simp), nestBranches_placed hlast fun b' hb => h b' (by simp [hb])⟩, trivial⟩

theorem ifStatement_keeps : Keeps T (ifStatement r) (Stmt.Placed P) := by
  refine andThen fun _ => andThen fun _ => andThen fun _ =>
    colonBlock_keeps.bind fun body hbody =>
      (Keeps.many (Q := fun x => PlacedAll P x.2.2) ?_).bind fun branches hbranches =>
        (optionalBlock_keeps "else").bind fun last hlast => andThen fun _ => ?_
  · exact andThen fun _ => andThen fun _ => ite
      (andThen fun _ => colonBlock_keeps.bind fun _ h => found h) nothing
  refine pure ⟨hbody, nestBranches_placed hlast ?_⟩
  intro b hb
  obtain ⟨x, hx, rfl⟩ := List.mem_map.1 hb
  exact hbranches x hx

theorem whileStatement_keeps : Keeps T (whileStatement r) (Stmt.Placed P) :=
  andThen fun _ => andThen fun _ => andThen fun _ => colonBlock_keeps.bind fun _ _ =>
    (optionalBlock_keeps "else").bind fun _ _ => finish fun _ => trivial

theorem forStatement_keeps : Keeps T (forStatement r) (Stmt.Placed P) := by
  refine andThen fun _ => andThen fun _ => andThen fun _ => andThen fun _ => andThen fun _ => ?_
  exact andThen fun _ => andThen fun _ => andThen fun _ => hr.block.bind fun _ _ =>
    (optionalBlock_keeps "else").bind fun _ _ => when (finish fun _ => trivial)

theorem withStatement_keeps : Keeps T (withStatement r) (Stmt.Placed P) := by
  refine andThen fun _ => andThen fun _ => andThen fun _ => andThen fun _ =>
    ite (andThen ?_) (andThen ?_) <;>
  · intro o
    cases o with
    | none =>
      exact andThen fun _ => andThen fun _ => andThen fun _ => andThen fun _ =>
        hr.block.bind fun _ hbody => when (finish fun _ => hbody)
    | some items =>
      exact when (andThen fun _ => hr.block.bind fun _ hbody => when (finish fun _ => hbody))

include hr in
theorem exceptHandler_keeps : Keeps T (exceptHandler r) (IfSome fun _ => True) :=
  andThen fun _ => ite
    (andThen fun _ => andThen fun _ => ite
      (when (colonBlock_keeps.bind fun _ _ => found trivial))
      (andThen fun _ => andThen fun _ => colonBlock_keeps.bind fun _ _ => found trivial))
    nothing

theorem tryStatement_keeps : Keeps T (tryStatement r) (Stmt.Placed P) := by
  refine andThen fun _ => andThen fun _ => colonBlock_keeps.bind fun body hbody =>
    (many exceptHandler_keeps).bind fun handlers _ => when ?_
  refine ite (andThen fun _ => ?_) ((optionalBlock_keeps "else").bind fun _ _ => ?_) <;>
  · exact (optionalBlock_keeps "finally").bind fun _ _ => when (when (finish fun _ => hbody))

include hr in
theorem caseBlock_keeps : Keeps T (caseBlock r) (IfSome fun _ => True) := by
  refine andThen fun _ => ?_
  split
  · refine andThen fun _ => andThen fun _ => andThen fun _ => ite (andThen ?_) (andThen ?_) <;>
    · exact fun _ => colonBlock_keeps.bind fun _ _ => found trivial
  · exact nothing

theorem matchStatement_keeps : Keeps T (matchStatement r) (IfSome (Stmt.Placed P)) := by
  refine andThen fun _ => andThen fun o => ?_
  cases o with
  | none => exact nothing
  | some subject =>
    exact (many caseBlock_keeps).bind fun _ _ => when
      (andThen fun _ => andThen fun _ => andThen fun _ => found trivial)

theorem statement_keeps : Keeps T (statement r) (PlacedAll P) := by
  have hone : ∀ {p : Parse Stmt}, Keeps T p (Stmt.Placed P) →
      Keeps T (do return [← p]) (PlacedAll P) :=
    fun hp => hp.bind fun _ h => pure ⟨h, trivial⟩
  refine andThen fun _ => andThen fun _ => ?_
  split
  · exact hone decorated_keeps
  iterate 2 exact hone (functionDefinition_keeps [])
  · exact hone forStatement_keeps
  · exact hone withStatement_keeps
  · exact hone (classDefinition_keeps [])
  · exact hone ifStatement_keeps
  · exact hone whileStatement_keeps
  · exact hone forStatement_keeps
  · exact hone withStatement_keeps
  · exact hone tryStatement_keeps
  · refine matchStatement_keeps.bind fun o ho => ?_
    cases o with
    | none => exact simpleStatements_keeps hr.stretch
    | some stmt => exact pure ⟨ho stmt rfl, trivial⟩
  · exact simpleStatements_keeps hr.stretch

theorem statements_keeps : Keeps T (statements r) (PlacedAll P) := by
  refine (Keeps.many (Q := PlacedAll P) (andThen fun _ => ?_)).bind fun groups hgroups =>
    pure (placedAll_iff.2 fun stmt hstmt => ?_)
  · split
    · exact nothing
    · exact nothing
    · exact statement_keeps.mapSome
  obtain ⟨body, hbody, hstmt⟩ := List.mem_flatten.1 hstmt
  exact placedAll_iff.1 (hgroups body hbody) stmt hstmt

theorem block_keeps : Keeps T (block r) (PlacedAll P) :=
  andThen fun _ => ite
    (andThen fun _ => statements_keeps.bind fun _ hbody =>
      when (andThen fun _ => pure hbody))
    (simpleStatements_keeps hr.stretch)

theorem rules_placed (d : Dialect) (n : Nat) (hP : ∀ span, Stretch T span → P span) :
    RulesPlaced T P (rules d n) where
  toRulesDrop := rules_drop d n
  stretch := hP
  block := by
    induction n with
    | zero => exact failure
    | succ n ih =>
      have : RulesPlaced T P (rules d n) := ⟨hP, ih⟩
      exact block_keeps

end Blocks

theorem parseModule_placed {text m} (h : parseModule d text = some m)
    (hP : ∀ tokens n, tokenize d .origin true text = some (tokens, n) →
      ∀ span, Stretch (· ∈ tokens) span → P span) : PlacedAll P m.body := by
  rw [parseModule] at h
  obtain ⟨⟨tokens, typeIgnores⟩, htokens, h⟩ := Option.bind_eq_some_iff.1 h
  obtain ⟨⟨body, s'⟩, hbody, h⟩ := Option.bind_eq_some_iff.1 h
  obtain ⟨_, hplaced⟩ :=
    @statements_keeps P (· ∈ tokens) _ (rules_placed d _ (hP _ _ htokens))
    (Input.start tokens) body s' (fun t ht => ht) hbody
  simp only at h
  split at h
  · cases h
    exact hplaced
  · cases h

end TypeStub.Syntax
