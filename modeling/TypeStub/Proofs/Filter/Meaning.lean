import Mathlib.Data.List.Forall2
import TypeStub.Filter
import TypeStub.Proofs.Results
/-!
# What filters mean

A filter is written as an expression, and asking whether it matches means to run the expression.
`run` says how an expression is run that may hold anything: a name may be unknown, a value may not
be callable, and `and` and `or` give one of their operands. `Denotes` says what the same expression
means as a formula about a context.

For an expression that was accepted as a filter

* running it comes to the answer of the filter, and the only way to fail is a pattern that is no
  regular expression (`runTruth_of_expr`);
* if all its patterns are regular expressions, the answer is the truth of the formula
  (`denotes_of_expr`);
* it fails exactly if a malformed pattern is reached from the left (`stumbles_of_expr`);
* the order of tags does not matter (`eval_sameTags`).
-/

namespace TypeStub

namespace Syntax

def Constant.truth : Constant → Bool
  | .none => false
  | .bool value => value
  | .ellipsis => true
  | .int n => n != 0
  | .float (.finite 0 _) | .imaginary (.finite 0 _) => false
  | .float _ | .imaginary _ => true
  | .str points _ => !points.isEmpty
  | .bytes octets => !octets.isEmpty

end Syntax

namespace Filter

open TypeStub.Syntax TypeStub.Regex

/-! ## Running an expression -/

/-- What an expression comes to: a constant, or one of the functions that ask about a subject. -/
inductive RunValue
  | constant (value : Constant)
  | function (subject : Subject)

/-- Why an expression comes to nothing. -/
inductive RunError
  /-- A pattern is no regular expression. -/
  | regex (cause : RegexError)
  /-- A name stands for none of the functions. -/
  | unknownName (name : String)
  /-- What is called is no function. -/
  | notCallable
  | wrongArguments
  /-- A pattern is no text. -/
  | notText
  /-- The whole comes to something that is no truth value. -/
  | notTruthValue
  /-- A form that has no meaning here. -/
  | unknownForm

def RunValue.truth : RunValue → Bool
  | .constant value => value.truth
  | .function _ => true

def answer : Except RegexError Bool → Except RunError RunValue
  | .ok b => .ok (.constant (.bool b))
  | .error cause => .error (.regex cause)

def matchInTurn (pattern : List Nat) : List String → Except RegexError Bool
  | [] => .ok false
  | text :: rest => do
    let r ← Regex.read pattern
    if r.fullMatch (Text.points text) then return true else matchInTurn pattern rest

def callValue (ctx : Context) : RunValue → List RunValue → Except RunError RunValue
  | .function subject, [.constant (.str pattern _)] =>
    answer (matchInTurn pattern (subject.texts ctx))
  | .function subject, [_] =>
    if (subject.texts ctx).isEmpty then answer (.ok false) else .error .notText
  | .function _, _ => .error .wrongArguments
  | .constant _, _ => .error .notCallable

def endOf : BoolOp → Bool
  | .and => false
  | .or => true

mutual

def run (ctx : Context) : Expr → Except RunError RunValue
  | .constant _ value => .ok (.constant value)
  | .name _ id _ =>
    match Subject.ofFunctionName? id with
    | some subject => .ok (.function subject)
    | none => .error (.unknownName id)
  | .call _ func args [] => do
    let f ← run ctx func
    let values ← runAll ctx args
    callValue ctx f values
  | .unaryOp _ .not operand => do
    let v ← run ctx operand
    return .constant (.bool !v.truth)
  | .boolOp _ op values => runUntil ctx (endOf op) values
  | _ => .error .unknownForm

def runAll (ctx : Context) : List Expr → Except RunError (List RunValue)
  | [] => .ok []
  | e :: rest => do
    let v ← run ctx e
    let vs ← runAll ctx rest
    return v :: vs

def runUntil (ctx : Context) (stop : Bool) : List Expr → Except RunError RunValue
  | [] => answer (.ok !stop)
  | [e] => run ctx e
  | e :: rest => do
    let v ← run ctx e
    if v.truth == stop then return v else runUntil ctx stop rest

end

def runTruth (ctx : Context) (e : Expr) : Except RunError Bool := do
  match ← run ctx e with
  | .constant (.bool b) => return b
  | _ => throw .notTruthValue

/-! ## Formulas -/

/-- A pattern is a regular expression that matches a text from end to end. -/
def Matches (pattern : List Nat) (text : String) : Prop :=
  ∃ r, Regex.read pattern = .ok r ∧ r.fullMatch (Text.points text) = true

/-- The context has the subject, and its text, or one of its tags, matches the pattern. -/
def AsksTruly (ctx : Context) (pattern : List Nat) : Subject → Prop
  | .parentNode => ∃ tag ∈ ctx.parentTags, Matches pattern tag.text
  | .node => ∃ tag ∈ ctx.tags, Matches pattern tag.text
  | .filePath => Matches pattern ctx.filePath
  | .name => ∃ name, ctx.name = some name ∧ Matches pattern name
  | .annot => ∃ annot, ctx.annot = some annot ∧ Matches pattern annot
  | .value => ∃ value, ctx.value = some value ∧ Matches pattern value
  | .anyChildNode =>
    ∃ tags, ctx.childTags = some tags ∧ ∃ tag ∈ tags, Matches pattern tag.text

mutual

/-- The truth of an expression as a formula. -/
def Denotes (ctx : Context) : Expr → Prop
  | .constant _ (.bool value) => value = true
  | .call _ (.name _ id _) [.constant _ (.str pattern _)] [] =>
    ∃ subject, Subject.ofFunctionName? id = some subject ∧ AsksTruly ctx pattern subject
  | .unaryOp _ .not operand => ¬ Denotes ctx operand
  | .boolOp _ .and values => DenotesEach ctx values
  | .boolOp _ .or values => DenotesSome ctx values
  | _ => False

/-- All expressions are true. -/
def DenotesEach (ctx : Context) : List Expr → Prop
  | [] => True
  | e :: rest => Denotes ctx e ∧ DenotesEach ctx rest

/-- One of the expressions is true. -/
def DenotesSome (ctx : Context) : List Expr → Prop
  | [] => False
  | e :: rest => Denotes ctx e ∨ DenotesSome ctx rest

end

mutual

def patterns : Expr → List (List Nat)
  | .call _ (.name ..) [.constant _ (.str pattern _)] [] => [pattern]
  | .unaryOp _ .not operand => patterns operand
  | .boolOp _ _ values => patternsOf values
  | _ => []

def patternsOf : List Expr → List (List Nat)
  | [] => []
  | e :: rest => patterns e ++ patternsOf rest

end

/-- Running an expression from left to right, and no further than needed, comes to a call that asks
about a subject. -/
inductive Reaches (ctx : Context) : Expr → Subject → List Nat → Prop
  | asks {span inner outer id subject pattern} :
      Subject.ofFunctionName? id = some subject →
      Reaches ctx (.call span (.name inner id .load) [.constant outer (.str pattern false)] [])
        subject pattern
  | not {span e subject pattern} :
      Reaches ctx e subject pattern → Reaches ctx (.unaryOp span .not e) subject pattern
  | operand {span op front back e subject pattern} :
      (∀ x ∈ front, runTruth ctx x = .ok !endOf op) → Reaches ctx e subject pattern →
      Reaches ctx (.boolOp span op (front ++ e :: back)) subject pattern

/-- Two contexts differ at most in the order of their tags, and in how often a tag is listed. -/
structure SameTags (ctx ctx' : Context) : Prop where
  parentTags : ∀ tag, tag ∈ ctx.parentTags ↔ tag ∈ ctx'.parentTags
  tags : ∀ tag, tag ∈ ctx.tags ↔ tag ∈ ctx'.tags
  filePath : ctx.filePath = ctx'.filePath
  name : ctx.name = ctx'.name
  annot : ctx.annot = ctx'.annot
  value : ctx.value = ctx'.value
  childTags : ctx.childTags.isSome = ctx'.childTags.isSome
  childTag : ∀ tag, tag ∈ ctx.childTags.getD [] ↔ tag ∈ ctx'.childTags.getD []

/-! ## Expressions that are accepted -/

namespace Condition

/-- A relation between expressions and conditions holds of the parts that conditions are built from.
-/
structure Closed (P : Expr → Condition → Prop) : Prop where
  const : ∀ {span : Span} {value : Bool}, P (.constant span (.bool value)) (.const value)
  asks : ∀ {span inner outer : Span} {id : String} {pattern : List Nat} {subject : Subject},
    Subject.ofFunctionName? id = some subject →
    P (.call span (.name inner id .load) [.constant outer (.str pattern false)] [])
      (.asks subject pattern)
  not : ∀ {span : Span} {e : Expr} {c : Condition}, P e c → P (.unaryOp span .not e) (.not c)
  and : ∀ {span : Span} {es : List Expr} {cs : List Condition}, List.Forall₂ P es cs →
    P (.boolOp span .and es) (.and cs)
  or : ∀ {span : Span} {es : List Expr} {cs : List Condition}, List.Forall₂ P es cs →
    P (.boolOp span .or es) (.or cs)

mutual

/-- What holds of the parts holds of every expression and the condition it denotes. -/
theorem Closed.ofExpr? {P : Expr → Condition → Prop} (hP : Closed P) :
    (e : Expr) → {c : Condition} → Condition.ofExpr? e = some c → P e c := by
  intro e c h
  unfold Condition.ofExpr? at h
  split at h
  · cases h
    exact hP.const
  · obtain ⟨subject, hsubject, rfl⟩ := Option.map_eq_some_iff.1 h
    exact hP.asks hsubject
  · next operand =>
    obtain ⟨c', hc', rfl⟩ := Option.map_eq_some_iff.1 h
    exact hP.not (hP.ofExpr? operand hc')
  · next values =>
    obtain ⟨cs, hcs, rfl⟩ := Option.map_eq_some_iff.1 h
    exact hP.and (hP.ofExprs? values hcs)
  · next values =>
    obtain ⟨cs, hcs, rfl⟩ := Option.map_eq_some_iff.1 h
    exact hP.or (hP.ofExprs? values hcs)
  · cases h

theorem Closed.ofExprs? {P : Expr → Condition → Prop} (hP : Closed P) :
    (es : List Expr) → {cs : List Condition} → Condition.ofExprs? es = some cs →
    List.Forall₂ P es cs
  | [], _, h => by
    cases h
    exact .nil
  | e :: rest, _, h => by
    rw [Condition.ofExprs?] at h
    obtain ⟨c, hc, h⟩ := Option.bind_eq_some_iff.1 h
    obtain ⟨cs', hcs', h⟩ := Option.bind_eq_some_iff.1 h
    cases h
    exact .cons (hP.ofExpr? e hc) (hP.ofExprs? rest hcs')

end

end Condition

/-! ## Chains of answers -/

/-- The first answer that is `stop`, or the last one. Nothing behind it is looked at. -/
def firstAnswer (stop : Bool) : List (Except RegexError Bool) → Except RegexError Bool
  | [] => .ok !stop
  | x :: rest => do
    let b ← x
    if b == stop then return b else firstAnswer stop rest

variable {ctx ctx' : Context} {e : Expr} {es : List Expr} {c : Condition} {cs : List Condition}

theorem evalAnd_eq (ctx : Context) (cs : List Condition) :
    Condition.evalAnd ctx cs = firstAnswer false (cs.map (Condition.eval ctx)) := by
  induction cs with
  | nil => rw [Condition.evalAnd]; rfl
  | cons c rest ih =>
    rw [Condition.evalAnd, ih, List.map_cons, firstAnswer]
    rcases c.eval ctx with cause | (_ | _) <;> rfl

theorem evalOr_eq (ctx : Context) (cs : List Condition) :
    Condition.evalOr ctx cs = firstAnswer true (cs.map (Condition.eval ctx)) := by
  induction cs with
  | nil => rw [Condition.evalOr]; rfl
  | cons c rest ih =>
    rw [Condition.evalOr, ih, List.map_cons, firstAnswer]
    rcases c.eval ctx with cause | (_ | _) <;> rfl

theorem firstAnswer_cons_eq_error {stop cause x rest} :
    firstAnswer stop (x :: rest) = .error cause ↔
      x = .error cause ∨ x = .ok !stop ∧ firstAnswer stop rest = .error cause := by
  rw [firstAnswer]
  rcases x with cause' | b
  · simp [bind, Except.bind]
  · cases b <;> cases stop <;> simp [bind, Except.bind, pure, Except.pure]

/-- Without failures, a chain is ended by one of its answers or by none. -/
theorem firstAnswer_of_ok {stop} (bs : List Bool) :
    firstAnswer stop (bs.map .ok) = .ok (if stop ∈ bs then stop else !stop) := by
  induction bs with
  | nil => rfl
  | cons b rest ih =>
    rw [List.map_cons, firstAnswer, ih]
    cases b <;> cases stop <;> simp [bind, Except.bind, pure, Except.pure]

/-! ## Running comes to the answer -/

theorem matchesAny_of_ne_nil (pattern : List Nat) {texts} (h : texts ≠ []) :
    matchesAny pattern texts = (Regex.read pattern).map fun r => texts.any r.fullMatch := by
  obtain ⟨text, rest, rfl⟩ := List.exists_cons_of_ne_nil h
  rw [matchesAny]
  · cases Regex.read pattern <;> rfl
  · simp

theorem matchInTurn_of_read {pattern r} (hr : Regex.read pattern = .ok r) (texts : List String) :
    matchInTurn pattern texts = .ok ((texts.map Text.points).any r.fullMatch) := by
  induction texts with
  | nil => rfl
  | cons text rest ih =>
    rw [matchInTurn, hr, ih, List.map_cons, List.any_cons]
    cases hmatch : r.fullMatch (Text.points text)
      <;> simp [hmatch, bind, Except.bind, pure, Except.pure]

theorem matchInTurn_eq (pattern : List Nat) (texts : List String) :
    matchInTurn pattern texts = matchesAny pattern (texts.map Text.points) := by
  cases texts with
  | nil => rfl
  | cons text rest =>
    rw [matchesAny_of_ne_nil pattern (by simp)]
    cases hread : Regex.read pattern with
    | error cause => rw [matchInTurn, hread]; rfl
    | ok r => rw [matchInTurn_of_read hread, Except.map]

theorem runUntil_of_forall₂ {stop}
    (h : List.Forall₂ (fun e c => run ctx e = answer (c.eval ctx)) es cs) :
    runUntil ctx stop es = answer (firstAnswer stop (cs.map (Condition.eval ctx))) := by
  induction h with
  | nil => rw [runUntil]; rfl
  | @cons e c es cs he hes ih =>
    rw [List.map_cons, firstAnswer]
    cases hes with
    | nil =>
      rw [runUntil, he]
      rcases c.eval ctx with cause | b
      · rfl
      · cases b <;> cases stop <;> rfl
    | cons _ _ =>
      rw [runUntil, he, ih]
      · rcases c.eval ctx with cause | b
        · rfl
        · cases b <;> cases stop <;> rfl
      · simp

theorem run_closed (ctx : Context) : Condition.Closed fun e c =>
    run ctx e = answer (c.eval ctx) where
  const := by simp [run, Condition.eval, answer]
  asks hsubject := by
    rw [Condition.eval, Condition.askEval, ← matchInTurn_eq]
    simp only [run, runAll, hsubject]
    rfl
  not {_ _ c} hrun := by
    rw [run, hrun, Condition.eval]
    rcases c.eval ctx with cause | b <;> rfl
  and hrun := by
    rw [run, Condition.eval, evalAnd_eq]
    exact runUntil_of_forall₂ hrun
  or hrun := by
    rw [run, Condition.eval, evalOr_eq]
    exact runUntil_of_forall₂ hrun

theorem runTruth_of_run {x} (h : run ctx e = answer x) : runTruth ctx e = x.mapError .regex := by
  rw [runTruth, h]
  rcases x with cause | b <;> rfl

/-- **Running a filter never fails but by a malformed pattern**, and it comes to the answer. -/
theorem runTruth_of_expr (h : Condition.ofExpr? e = some c) :
    runTruth ctx e = (c.eval ctx).mapError .regex :=
  runTruth_of_run ((run_closed ctx).ofExpr? e h)

/-! ## The answer is the truth of the formula -/

theorem asksTruly_iff {subject pattern} :
    AsksTruly ctx pattern subject ↔ ∃ text ∈ subject.texts ctx, Matches pattern text := by
  cases subject with
  | anyChildNode => cases h : ctx.childTags <;> simp [AsksTruly, Subject.texts, h]
  | _ => simp [AsksTruly, Subject.texts]

theorem askEval_of_read (ctx : Context) (subject : Subject) {pattern r}
    (hr : Regex.read pattern = .ok r) : ∃ b, Condition.askEval subject pattern ctx = .ok b ∧
      (b = true ↔ AsksTruly ctx pattern subject) := by
  have hmatches : ∀ text, Matches pattern text ↔ r.fullMatch (Text.points text) = true := by
    intro text
    simp [Matches, hr]
  refine ⟨((subject.texts ctx).map Text.points).any r.fullMatch, ?_, ?_⟩
  · rw [Condition.askEval]
    cases subject.texts ctx with
    | nil => rfl
    | cons text rest => rw [matchesAny_of_ne_nil pattern (by simp), hr, Except.map]
  · simp [asksTruly_iff, hmatches]

theorem answers_of_forall₂
    (h : List.Forall₂ (fun e c => (∀ p ∈ patterns e, ∃ r, Regex.read p = .ok r) →
      ∃ b, c.eval ctx = .ok b ∧ (b = true ↔ Denotes ctx e)) es cs)
    (hread : ∀ p ∈ patternsOf es, ∃ r, Regex.read p = .ok r) :
    ∃ bs : List Bool, cs.map (Condition.eval ctx) = bs.map .ok ∧
      (false ∈ bs ↔ ¬ DenotesEach ctx es) ∧ (true ∈ bs ↔ DenotesSome ctx es) := by
  induction h with
  | nil => exact ⟨[], rfl, by simp [DenotesEach], by simp [DenotesSome]⟩
  | cons he _ ih =>
    simp only [patternsOf, List.forall_mem_append] at hread
    obtain ⟨b, hb, htruth⟩ := he hread.1
    obtain ⟨bs, hbs, heach, hsome⟩ := ih hread.2
    refine ⟨b :: bs, by rw [List.map_cons, hb, hbs, List.map_cons], ?_, ?_⟩
    · rw [List.mem_cons, heach, DenotesEach, ← htruth]
      cases b <;> simp
    · rw [List.mem_cons, hsome, DenotesSome, ← htruth]
      cases b <;> simp

/-- **The answer of a filter is the truth of its formula** if its patterns are regular expressions.
-/
theorem denotes_of_expr (h : Condition.ofExpr? e = some c)
    (hread : ∀ p ∈ patterns e, ∃ r, Regex.read p = .ok r) :
    ∃ b, c.eval ctx = .ok b ∧ (b = true ↔ Denotes ctx e) := by
  have hclosed : Condition.Closed fun e c => (∀ p ∈ patterns e, ∃ r, Regex.read p = .ok r) →
      ∃ b, c.eval ctx = .ok b ∧ (b = true ↔ Denotes ctx e) :=
    { const := fun {_ value} _ => ⟨value, by rw [Condition.eval], by rw [Denotes]⟩
      asks := fun {_ _ _ _ pattern subject} hsubject hread => by
        obtain ⟨r, hr⟩ := hread pattern (by simp [patterns])
        obtain ⟨b, hb, htruth⟩ := askEval_of_read ctx subject hr
        refine ⟨b, by rw [Condition.eval, hb], ?_⟩
        simp [Denotes, hsubject, htruth]
      not := fun hoperand hread => by
        rw [patterns] at hread
        obtain ⟨b, hb, htruth⟩ := hoperand hread
        refine ⟨!b, by rw [Condition.eval, hb]; rfl, ?_⟩
        rw [Denotes, ← htruth]
        cases b <;> simp
      and := fun hoperands hread => by
        rw [patterns] at hread
        obtain ⟨bs, hbs, heach, _⟩ := answers_of_forall₂ hoperands hread
        refine ⟨_, by rw [Condition.eval, evalAnd_eq, hbs, firstAnswer_of_ok], ?_⟩
        rw [Denotes, ← not_iff_not, ← heach]
        split <;> simp_all
      or := fun hoperands hread => by
        rw [patterns] at hread
        obtain ⟨bs, hbs, _, hsome⟩ := answers_of_forall₂ hoperands hread
        refine ⟨_, by rw [Condition.eval, evalOr_eq, hbs, firstAnswer_of_ok], ?_⟩
        rw [Denotes, ← hsome]
        split <;> simp_all }
  exact hclosed.ofExpr? e h hread

/-! ## When a filter fails -/

theorem askEval_eq_error {subject pattern cause} :
    Condition.askEval subject pattern ctx = .error cause ↔
      subject.texts ctx ≠ [] ∧ Regex.read pattern = .error cause := by
  rw [Condition.askEval]
  cases subject.texts ctx with
  | nil => simp [matchesAny]
  | cons text rest =>
    rw [matchesAny_of_ne_nil pattern (by simp)]
    cases Regex.read pattern <;> simp [Except.map]

section Failures

variable {span : Span} {op : BoolOp} {subject : Subject} {pattern : List Nat} {cause : RegexError}

theorem not_reaches_nil : ¬ Reaches ctx (.boolOp span op []) subject pattern := by
  generalize hes : ([] : List Expr) = es
  intro h
  cases h with
  | operand _ _ => simp at hes

theorem reaches_cons : Reaches ctx (.boolOp span op (e :: es)) subject pattern ↔
    Reaches ctx e subject pattern ∨
      runTruth ctx e = .ok (!endOf op) ∧ Reaches ctx (.boolOp span op es) subject pattern := by
  constructor
  · generalize hall : e :: es = all
    intro h
    cases h with
    | @operand _ _ front back x _ _ hfront hx =>
      cases front with
      | nil =>
        obtain ⟨rfl, -⟩ := List.cons.inj hall
        exact .inl hx
      | cons y front =>
        cases hall
        obtain ⟨hy, hfront⟩ := List.forall_mem_cons.1 hfront
        exact .inr ⟨hy, .operand hfront hx⟩
  · rintro (h | ⟨he, h⟩)
    · exact @Reaches.operand ctx span op [] es e subject pattern nofun h
    · cases h with
      | @operand _ _ front back x _ _ hfront hx =>
        exact @Reaches.operand ctx span op (e :: front) back x subject pattern
          (List.forall_mem_cons.2 ⟨he, hfront⟩) hx

/-- A filter comes to a malformed pattern, and there is a text to match. -/
def Stumbles (ctx : Context) (cause : RegexError) (e : Expr) : Prop :=
  ∃ subject pattern, Reaches ctx e subject pattern ∧ subject.texts ctx ≠ [] ∧
    Regex.read pattern = .error cause

theorem not_stumbles_nil : ¬ Stumbles ctx cause (.boolOp span op []) := by
  rintro ⟨_, _, h, _⟩
  exact not_reaches_nil h

theorem stumbles_cons : Stumbles ctx cause (.boolOp span op (e :: es)) ↔ Stumbles ctx cause e ∨
      runTruth ctx e = .ok (!endOf op) ∧ Stumbles ctx cause (.boolOp span op es) := by
  simp only [Stumbles, reaches_cons, or_and_right, exists_or, and_assoc, exists_and_left]

theorem stumbles_of_forall₂ (op : BoolOp)
    (h : List.Forall₂ (fun e c => run ctx e = answer (c.eval ctx) ∧
      (c.eval ctx = .error cause ↔ Stumbles ctx cause e)) es cs) :
    firstAnswer (endOf op) (cs.map (Condition.eval ctx)) = .error cause ↔
      Stumbles ctx cause (.boolOp span op es) := by
  induction h with
  | nil => simp [firstAnswer, not_stumbles_nil]
  | @cons e c es cs he _ ih =>
    have htruth : c.eval ctx = .ok (!endOf op) ↔ runTruth ctx e = .ok (!endOf op) := by
      rw [runTruth_of_run he.1]
      rcases c.eval ctx with cause' | b <;> simp [Except.mapError]
    rw [List.map_cons, firstAnswer_cons_eq_error, he.2, htruth, ih, stumbles_cons]

/-- **A filter fails exactly where running it comes to a malformed pattern.** -/
theorem stumbles_of_expr (h : Condition.ofExpr? e = some c) :
    c.eval ctx = .error cause ↔ Stumbles ctx cause e := by
  have hclosed : Condition.Closed fun e c => run ctx e = answer (c.eval ctx) ∧
      (c.eval ctx = .error cause ↔ Stumbles ctx cause e) :=
    { const := ⟨(run_closed ctx).const, by
        rw [Condition.eval]
        refine iff_of_false nofun ?_
        rintro ⟨_, _, h, _⟩
        cases h⟩
      asks := fun {_ _ _ _ pattern subject} hsubject => ⟨(run_closed ctx).asks hsubject, by
        rw [Condition.eval, askEval_eq_error]
        constructor
        · rintro ⟨htexts, hread⟩
          exact ⟨subject, pattern, .asks hsubject, htexts, hread⟩
        · rintro ⟨_, _, h, htexts, hread⟩
          cases h with
          | asks hsubject' =>
            obtain rfl := Option.some.inj (hsubject.symm.trans hsubject')
            exact ⟨htexts, hread⟩⟩
      not := fun {_ e c} hoperand => ⟨(run_closed ctx).not hoperand.1, by
        have heval : (Condition.not c).eval ctx = .error cause ↔ c.eval ctx = .error cause := by
          rw [Condition.eval]
          rcases c.eval ctx with cause' | b <;> simp [bind, Except.bind, pure, Except.pure]
        rw [heval, hoperand.2]
        constructor
        · rintro ⟨subject, pattern, h, hfails⟩
          exact ⟨subject, pattern, .not h, hfails⟩
        · rintro ⟨subject, pattern, h, hfails⟩
          cases h with
          | not h => exact ⟨subject, pattern, h, hfails⟩⟩
      and := fun hoperands => ⟨(run_closed ctx).and (hoperands.imp fun _ _ => And.left), by
        rw [Condition.eval, evalAnd_eq]
        exact stumbles_of_forall₂ .and hoperands⟩
      or := fun hoperands => ⟨(run_closed ctx).or (hoperands.imp fun _ _ => And.left), by
        rw [Condition.eval, evalOr_eq]
        exact stumbles_of_forall₂ .or hoperands⟩ }
  exact (hclosed.ofExpr? e h).2

end Failures

/-! ## The order of tags -/

theorem mem_texts_sameTags (h : SameTags ctx ctx') (subject : Subject) (text : String) :
    text ∈ subject.texts ctx ↔ text ∈ subject.texts ctx' := by
  cases subject with
  | parentNode => simp only [Subject.texts, List.mem_map, h.parentTags]
  | node => simp only [Subject.texts, List.mem_map, h.tags]
  | filePath => rw [Subject.texts, Subject.texts, h.filePath]
  | name => rw [Subject.texts, Subject.texts, h.name]
  | annot => rw [Subject.texts, Subject.texts, h.annot]
  | value => rw [Subject.texts, Subject.texts, h.value]
  | anyChildNode => simp only [Subject.texts, List.mem_map, h.childTag]

theorem matchesAny_congr {pattern texts texts'} (h : ∀ text, text ∈ texts ↔ text ∈ texts') :
    matchesAny pattern texts = matchesAny pattern texts' := by
  have hempty : texts = [] ↔ texts' = [] := by
    simp only [List.eq_nil_iff_forall_not_mem, h]
  have hany : ∀ r : Regex, texts.any r.fullMatch = texts'.any r.fullMatch := fun r => by
    rw [Bool.eq_iff_iff]
    simp only [List.any_eq_true, h]
  by_cases htexts : texts = []
  · rw [htexts, hempty.1 htexts]
  · rw [matchesAny_of_ne_nil pattern htexts, matchesAny_of_ne_nil pattern (mt hempty.2 htexts)]
    simp only [hany]

theorem eval_sameTags (h : SameTags ctx ctx') (he : Condition.ofExpr? e = some c) :
    c.eval ctx' = c.eval ctx := by
  have hmap : ∀ {es : List Expr} {cs : List Condition},
      List.Forall₂ (fun _ c => Condition.eval ctx' c = Condition.eval ctx c) es cs →
      cs.map (Condition.eval ctx') = cs.map (Condition.eval ctx) := by
    intro es cs hcs
    induction hcs with
    | nil => rfl
    | cons hc _ ih => rw [List.map_cons, List.map_cons, hc, ih]
  have hclosed : Condition.Closed fun _ c => Condition.eval ctx' c = Condition.eval ctx c :=
    { const := by intros; rw [Condition.eval, Condition.eval]
      asks := fun _ => by
        rw [Condition.eval, Condition.eval, Condition.askEval, Condition.askEval]
        refine matchesAny_congr fun text => ?_
        simp only [List.mem_map, mem_texts_sameTags h]
      not := fun hc => by rw [Condition.eval, Condition.eval, hc]
      and := fun hcs => by rw [Condition.eval, Condition.eval, evalAnd_eq, evalAnd_eq, hmap hcs]
      or := fun hcs => by rw [Condition.eval, Condition.eval, evalOr_eq, evalOr_eq, hmap hcs] }
  exact hclosed.ofExpr? e he

/-! ## Filters -/

theorem ofExpr?_of_read {raw f} (h : Filter.read raw = .ok f) :
    Condition.ofExpr? f.expr = some f.condition := by
  unfold Filter.read at h
  simp only at h
  split at h
  · cases h
  · split at h
    · next hcondition =>
      cases h
      exact hcondition
    · split at h <;> cases h

/-- What asking a filter in a context means:

* running its expression comes to the same answer, a truth value, and fails only by a pattern
  (`run`);
* with regular expressions as patterns, the answer is the truth of the formula (`truth`);
* it fails exactly if it comes to a malformed pattern with a text to match (`fails`);
* tags in another order make no difference (`order`). -/
structure Meaning (f : Filter) (ctx : Context) : Prop where
  run : runTruth ctx f.expr = (f.isMatch ctx).mapError .regex
  truth : (∀ p ∈ patterns f.expr, ∃ r, Regex.read p = .ok r) →
    ∃ b, f.isMatch ctx = .ok b ∧ (b = true ↔ Denotes ctx f.expr)
  fails : ∀ cause, f.isMatch ctx = .error cause ↔ Stumbles ctx cause f.expr
  order : ∀ ctx', SameTags ctx ctx' → f.isMatch ctx' = f.isMatch ctx

/-- **Filters are formulas.** Whatever is accepted as a filter means in every context what its
expression says. -/
theorem isMatch_meaning {raw : FilterText} {f : Filter} (h : Filter.read raw = .ok f)
    (ctx : Context) : Meaning f ctx where
  run := runTruth_of_expr (ofExpr?_of_read h)
  truth := denotes_of_expr (ofExpr?_of_read h)
  fails _ := stumbles_of_expr (ofExpr?_of_read h)
  order _ hctx := eval_sameTags hctx (ofExpr?_of_read h)

def sampleText : FilterText :=
  .expr "not name_is('_[^_].*') and (node_is('class|if') or value_is('('))"

def sampleContext : Context :=
  { parentTags := [.module], tags := [.classDef], filePath := "m.py", name := some "A" }

theorem isMatch_meaning_on_sample :
    ∃ f, Filter.read sampleText = .ok f ∧ f.isMatch sampleContext = .ok true ∧
      Meaning f sampleContext := by
  have hsample : (Filter.read sampleText).toOption.any (fun f =>
      f.isMatch sampleContext = .ok true) = true := by decide +kernel
  simp only [any_toOption_iff, decide_eq_true_eq] at hsample
  obtain ⟨f, hf, hmatch⟩ := hsample
  exact ⟨f, hf, hmatch, isMatch_meaning hf sampleContext⟩

/-- A pattern can be refused for a count of repetitions that is too large, which is no matter of its
form. -/
theorem isMatch_fails_otherwise : ¬ ∀ (raw : FilterText) (f : Filter) (ctx : Context),
    Filter.read raw = .ok f →
      (∃ b, f.isMatch ctx = .ok b) ∨ f.isMatch ctx = .error .malformed := by
  intro hall
  have hsample : (Filter.read (.expr "name_is('A\x7b4294967295\x7d')")).toOption.any (fun f =>
      f.isMatch sampleContext = .error .countTooLarge) = true := by decide +kernel
  simp only [any_toOption_iff, decide_eq_true_eq] at hsample
  obtain ⟨f, hf, hmatch⟩ := hsample
  obtain ⟨b, hb⟩ | herror := hall _ f sampleContext hf
  · rw [hmatch] at hb
    cases hb
  · rw [hmatch] at herror
    cases herror

end Filter

end TypeStub
