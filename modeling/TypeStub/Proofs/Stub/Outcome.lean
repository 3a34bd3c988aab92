import TypeStub.Proofs.Results
import TypeStub.Stub
/-!
# Outcomes

Stubbing writes remarks to a log and never reads it. So a step has one outcome, whatever was written
before it, and the outcome of a sequence of steps follows from the outcomes of its parts.
-/

namespace TypeStub

open TypeStub.Syntax

namespace StubM

variable {α β : Type}

def outcome (x : StubM α) : Except StubError α := (x.run.run []).1

def remarks (x : StubM α) : Log := (x.run.run []).2

/-- A step that does not depend on the log and only adds to it. -/
class Steady (x : StubM α) : Prop where
  eq : ∀ log, x.run.run log = (x.outcome, log ++ x.remarks)

variable {x : StubM α} {f : α → StubM β}

/-- The outcome of two steps is that of the second, unless the first fails. -/
theorem outcome_bind [hf : ∀ a, Steady (f a)] :
    (x >>= f).outcome = x.outcome >>= fun a => (f a).outcome := by
  unfold outcome
  rw [run_run_bind]
  rcases hx : x.run.run [] with ⟨cause | a, log⟩
  · rfl
  · simp only [(hf a).eq log]
    rfl

theorem outcome_bind_ok [∀ a, Steady (f a)] {b} :
    (x >>= f).outcome = .ok b ↔ ∃ a, x.outcome = .ok a ∧ (f a).outcome = .ok b := by
  rw [outcome_bind, bind_eq_ok]

theorem outcome_bind_of_ok {a} [∀ a, Steady (f a)] (hx : x.outcome = .ok a) :
    (x >>= f).outcome = (f a).outcome := by
  rw [outcome_bind, hx]
  rfl

@[simp] theorem outcome_pure (a : α) : (pure a : StubM α).outcome = .ok a := rfl

@[simp] theorem outcome_throw (cause : StubError) :
    (throw cause : StubM α).outcome = .error cause := rfl

namespace Steady

instance pure (a : α) : Steady (pure a : StubM α) := ⟨fun log => by
  change (Except.ok a, log) = (Except.ok a, log ++ [])
  rw [List.append_nil]⟩

instance throw (cause : StubError) : Steady (throw cause : StubM α) := ⟨fun log => by
  change (Except.error cause, log) = (Except.error cause, log ++ [])
  rw [List.append_nil]⟩

instance bind {x : StubM α} {f : α → StubM β} [hx : Steady x] [hf : ∀ a, Steady (f a)] :
    Steady (x >>= f) := by
  refine ⟨fun log => ?_⟩
  unfold outcome remarks
  rw [run_run_bind, run_run_bind, hx.eq log]
  unfold outcome remarks
  rcases x.run.run [] with ⟨cause | a, more⟩
  · rfl
  · simp only [(hf a).eq (log ++ more), (hf a).eq more, List.append_assoc]

instance map {x : StubM α} [Steady x] (f : α → β) : Steady (f <$> x) := by
  rw [map_eq_pure_bind]
  infer_instance

instance ite {p : Prop} [Decidable p] {x y : StubM α} [hx : Steady x] [hy : Steady y] :
    Steady (if p then x else y) := by
  split
  · exact hx
  · exact hy

instance mapM {f : α → StubM β} [∀ a, Steady (f a)] (l : List α) : Steady (l.mapM f) := by
  induction l with
  | nil => rw [List.mapM_nil]; infer_instance
  | cons a l ih => rw [List.mapM_cons]; infer_instance

end Steady

/-! ## Returning -/

/-- A step returns. -/
def Returns (x : StubM α) : Prop :=
  ∃ a, x.outcome = .ok a

theorem returns_pure (a : α) : Returns (pure a : StubM α) := ⟨a, rfl⟩

theorem returns_bind [∀ a, Steady (f a)] :
    Returns (x >>= f) ↔ ∃ a, x.outcome = .ok a ∧ Returns (f a) := by
  simp only [Returns, outcome_bind_ok]
  constructor
  · rintro ⟨b, a, ha, hb⟩
    exact ⟨a, ha, b, hb⟩
  · rintro ⟨a, ha, b, hb⟩
    exact ⟨b, a, ha, hb⟩

theorem returns_bind_of_ok {a} [∀ a, Steady (f a)] (hx : x.outcome = .ok a) :
    Returns (x >>= f) ↔ Returns (f a) := by
  rw [Returns, Returns, outcome_bind_of_ok hx]

/-- What follows a step returns for every result of it, or for none. -/
theorem returns_bind_and [∀ a, Steady (f a)] {P : Prop} (hf : ∀ a, Returns (f a) ↔ P) :
    Returns (x >>= f) ↔ Returns x ∧ P := by
  rw [returns_bind]
  simp only [hf]
  constructor
  · rintro ⟨a, ha, hP⟩
    exact ⟨⟨a, ha⟩, hP⟩
  · rintro ⟨⟨a, ha⟩, hP⟩
    exact ⟨a, ha, hP⟩

theorem returns_bind_left [∀ a, Steady (f a)] (hf : ∀ a, Returns (f a)) :
    Returns (x >>= f) ↔ Returns x := by
  rw [returns_bind_and fun a => iff_true_intro (hf a), and_true]

theorem returns_bind_pure {g : α → β} : Returns (x >>= fun a => pure (g a)) ↔ Returns x :=
  returns_bind_left fun a => returns_pure (g a)

/-! ## Primitives -/

instance {ε} (reason : ε → StubError) (r : Except ε α) : Steady (ofResult reason r) := by
  cases r <;> unfold ofResult <;> infer_instance

instance (e : Expr) : Steady (exprLine e) := by unfold exprLine; infer_instance

instance (line : String) : Steady (say line) := ⟨fun log => by
  change (Except.ok (), log ++ [line]) = (Except.ok (), log ++ ([] ++ [line]))
  rw [List.nil_append]⟩

instance (what : String) : Steady (sayUnexpected what) := by unfold sayUnexpected; infer_instance

instance (text : String) : Steady (oneLine text) := by unfold oneLine; infer_instance

@[simp] theorem ofResult_ok {ε} {reason : ε → StubError} {r : Except ε α} {a : α} :
    (ofResult reason r).outcome = .ok a ↔ r = .ok a := by
  cases r <;> simp [ofResult]

@[simp] theorem exprLine_ok {e : Expr} {text} :
    (exprLine e).outcome = .ok text ↔ e.render = .ok text := ofResult_ok

@[simp] theorem sayUnexpected_outcome (what : String) : (sayUnexpected what).outcome = .ok () := rfl

@[simp] theorem oneLine_ok {text line} :
    (oneLine text).outcome = .ok line ↔ '\n' ∉ text.toList ∧ text = line := by
  unfold oneLine
  by_cases h : '\n' ∈ text.toList <;> simp [h]

theorem returns_oneLine {text} : Returns (oneLine text) ↔ '\n' ∉ text.toList := by
  simp [Returns]

end StubM

namespace Session

open StubM

instance (s : Session) (what : String) : Steady (s.sayPruned what) := by
  unfold sayPruned
  infer_instance

instance (s : Session) (stmt : Stmt) : Steady (s.sayIgnored stmt) := by
  unfold sayIgnored
  infer_instance

@[simp] theorem sayPruned_outcome (s : Session) (what : String) :
    (s.sayPruned what).outcome = .ok () := by
  unfold sayPruned
  split <;> rfl

@[simp] theorem sayIgnored_outcome (s : Session) (stmt : Stmt) :
    (s.sayIgnored stmt).outcome = .ok () := by
  unfold sayIgnored
  split <;> rfl

instance (f : Filter) (ctx : Filter.Context) : Steady (isMatch f ctx) := by
  unfold isMatch
  infer_instance

@[simp] theorem isMatch_ok {f : Filter} {ctx b} :
    (isMatch f ctx).outcome = .ok b ↔ f.isMatch ctx = .ok b := ofResult_ok

end Session

namespace Source

open StubM

/-! ## Types and signatures -/

instance (s : Source) (e : Expr) (points : List Nat) : Steady (s.quotedTypeText e points) := by
  unfold quotedTypeText
  split <;> infer_instance

instance (es : List Expr) : Steady (plainTexts es) := by
  induction es <;> unfold plainTexts <;> infer_instance

instance (s : Source) (span : Span) : Steady (s.spanText span) := by
  unfold spanText
  infer_instance

mutual

theorem typeText_steady (s : Source) (e : Expr) : Steady (s.typeText e) := by
  unfold typeText
  split
  · next elts =>
    have := fun onlyFirst => argTexts_steady s onlyFirst elts
    infer_instance
  · next index _ =>
    have := typeText_steady s index
    infer_instance
  iterate 2
    · next elts =>
      have := typeTexts_steady s elts
      infer_instance
  · next left right =>
    have := typeText_steady s left
    have := typeText_steady s right
    infer_instance
  · infer_instance
  · infer_instance

theorem argTexts_steady (s : Source) (onlyFirst : Bool) (es : List Expr) :
    Steady (s.argTexts onlyFirst es) := by
  unfold argTexts
  split
  · infer_instance
  · next first rest =>
    have := typeText_steady s first
    have := typeTexts_steady s rest
    infer_instance

theorem typeTexts_steady (s : Source) (es : List Expr) : Steady (s.typeTexts es) := by
  unfold typeTexts
  split
  · infer_instance
  · next e rest =>
    have := typeText_steady s e
    have := typeTexts_steady s rest
    infer_instance

end

attribute [instance] typeText_steady argTexts_steady typeTexts_steady

variable (s : Source) {e : Option Expr} {p : Param Expr} {ps : Params Expr}

instance (style : DefaultStyle) : Steady (defaultText style e) := by
  cases e <;> cases style <;> unfold defaultText <;> infer_instance

instance : Steady (s.annotText e) := by cases e <;> unfold annotText <;> infer_instance

instance (comment : Option String) (what : String) : Steady (sayTypeComment comment what) := by
  cases comment <;> unfold sayTypeComment <;> infer_instance

@[simp] theorem sayTypeComment_outcome (comment : Option String) (what : String) :
    (sayTypeComment comment what).outcome = .ok () := by
  unfold sayTypeComment
  split
  · rfl
  · split <;> rfl

instance (style : DefaultStyle) :
    Steady (s.paramText style p e) := by unfold paramText; infer_instance

instance (style : DefaultStyle) (ps : List (Param Expr × Option Expr)) :
    Steady (s.paramTexts style ps) := by
  induction ps <;> unfold paramTexts <;> infer_instance

instance (sign : String) (p : Option (Param Expr)) : Steady (s.variadicText sign p) := by
  cases p <;> unfold variadicText <;> infer_instance

instance : Steady (s.signaturePieces ps) := by unfold signaturePieces; infer_instance

instance : Steady (s.signatureText ps) := by unfold signatureText; infer_instance

end Source

namespace Session

open StubM

/-! ## Statements -/

variable (s : Session) (parentTags : List Tag) {e : Option Expr} {head : FunctionHead}
  {names : List Alias} {children : List Node} {targets : List Expr} {simple : Bool}

instance (ds : List Expr) : Steady (decoratorLines ds) := by unfold decoratorLines; infer_instance

instance (ks : List (Keyword Expr)) : Steady (classKeywords ks) := by
  induction ks with
  | nil =>
    unfold classKeywords
    infer_instance
  | cons k ks ih =>
    unfold classKeywords
    split <;> infer_instance

instance (head : ClassHead) : Steady (classLine head) := by unfold classLine; infer_instance

instance : Steady (s.returnsText parentTags head) := by unfold returnsText; split <;> infer_instance

instance : Steady (s.functionLine parentTags head) := by unfold functionLine; infer_instance

instance (tags : List Tag) (name : Option String) :
    Steady (s.withEllipsis parentTags tags name children) := by
  unfold withEllipsis
  infer_instance

instance :
    Steady (s.keptAliases parentTags names) := by unfold keptAliases; split <;> infer_instance

instance (remade : List Alias → Stmt) : Steady (s.stubImport parentTags names remade) := by
  unfold stubImport
  infer_instance

instance : Steady (targetsText targets simple) := by unfold targetsText; infer_instance

instance : Steady (optionLine e) := by cases e <;> unfold optionLine <;> infer_instance

instance : Steady (s.optionType e) := by cases e <;> unfold optionType <;> infer_instance

instance (keep : Bool) (name : String) (value : Option String) :
    Steady (s.shownValue keep name value) := by
  cases value <;> unfold shownValue <;> infer_instance

instance (annot value : Option Expr) :
    Steady (s.stubAssign parentTags targets simple annot value) := by
  unfold stubAssign
  infer_instance

instance (last : Option (List Tag)) (span : Span) : Steady (s.stubString parentTags last span) := by
  unfold stubString
  split <;> infer_instance

instance (body : List Stmt) : Steady (s.functionDoc body) := by
  cases body <;> unfold functionDoc <;> infer_instance

instance (body : List Stmt) : Steady (s.stubFunction parentTags head body) := by
  unfold stubFunction
  infer_instance

instance (stmt : Stmt) : Steady (s.stubOther stmt) := by unfold stubOther; split <;> infer_instance

instance (line : String) : Steady (s.branchNode parentTags line children) := by
  unfold branchNode
  infer_instance

instance (condition : String) (inner others : StubM (List Node)) [Steady inner] [Steady others] :
    Steady (s.ifNodes parentTags condition children inner others) := by
  unfold ifNodes
  infer_instance

mutual

theorem stub_steady (s : Session) (parentTags : List Tag) (last : Option (List Tag))
    (stmt : Stmt) : Steady (s.stub parentTags last stmt) := by
  unfold stub
  split
  · infer_instance
  · infer_instance
  · infer_instance
  · infer_instance
  · next body =>
    have := stubAll_steady s [.classDef] none body
    infer_instance
  · infer_instance
  · infer_instance
  · next body orelse =>
    have := fun parentTags last => stubAll_steady s parentTags last body
    have := stubElse_steady s parentTags orelse
    infer_instance
  · next body _ _ _ =>
    exact stubAll_steady s parentTags last body
  · next body _ =>
    have := stubAll_steady s parentTags last body
    infer_instance
  · infer_instance

theorem stubAll_steady (s : Session) (parentTags : List Tag) (last : Option (List Tag))
    (stmts : List Stmt) : Steady (s.stubAll parentTags last stmts) := by
  unfold stubAll
  split
  · infer_instance
  · next stmt rest =>
    have := stub_steady s parentTags last stmt
    have := fun last => stubAll_steady s parentTags last rest
    infer_instance

theorem stubElse_steady (s : Session) (parentTags : List Tag) (stmts : List Stmt) :
    Steady (s.stubElse parentTags stmts) := by
  unfold stubElse
  split
  · infer_instance
  · next body orelse =>
    have := stubAll_steady s [.if] none body
    have := stubElse_steady s parentTags orelse
    infer_instance
  · next stmt rest _ =>
    have := stub_steady s [.if] none stmt
    have := fun last => stubAll_steady s [.if] last rest
    infer_instance

end

attribute [instance] stub_steady stubAll_steady stubElse_steady

instance (s : Session) (m : Module) :
    Steady (s.stubModule m) := by unfold stubModule; infer_instance

instance (s : Session) (m : Module) : Steady (s.output m) := by unfold output; infer_instance

end Session

namespace Source

open StubM

/-! ## Names in use -/

variable (s : Source) {annot value : Option Expr}

instance (es : List Expr) : Steady (listedNames es) := by
  fun_induction listedNames es <;> infer_instance

instance : Steady (exportedNames value) := by unfold exportedNames; split <;> infer_instance

instance : Steady (s.aliasNames annot value) := by unfold aliasNames; split <;> infer_instance

instance (targets : List Expr) (simple : Bool) :
    Steady (s.assignmentNames targets simple annot value) := by
  unfold assignmentNames
  dsimp only
  infer_instance

instance (stmt : Stmt) : Steady (s.neededNames stmt) := by
  unfold neededNames
  split <;> infer_instance

instance (used : Option (List String)) (stmts : List Stmt) : Steady (s.usedNames used stmts) := by
  induction stmts generalizing used with
  | nil =>
    unfold usedNames
    infer_instance
  | cons stmt rest ih =>
    have (needed : Option (List String)) : Steady (match needed with
        | none => s.usedNames used rest
        | some names => s.usedNames (some (used.getD [] ++ names)) rest) := by
      cases needed <;> infer_instance
    unfold usedNames
    infer_instance

end Source

namespace Stub

open StubM

instance pass_steady (config : ValidConfig) (debug : Bool) (source : Source)
    (used : Option (List String)) (discover : Bool) :
    Steady (pass config debug source used discover) := by
  unfold pass
  dsimp only
  infer_instance

end Stub

end TypeStub
