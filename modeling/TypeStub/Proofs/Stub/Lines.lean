import TypeStub.Proofs.Grammar.Placed
import TypeStub.Proofs.Stub.Outcome
import TypeStub.Proofs.Stub.Readable
/-!
# What fits into a line

Most of what a stub holds has to fit into one line. The conditions here say when the texts of
expressions, of types, and of signatures do, in terms of what they consist of.
-/

namespace TypeStub

open TypeStub.Syntax

/-- What joined texts hold: what one of them holds, if the separator does not hold it. -/
theorem Text.mem_join {c sep} (hsep : c ∉ sep.toList) (pieces : List String) :
    c ∈ (Text.join sep pieces).toList ↔ ∃ p ∈ pieces, c ∈ p.toList := by
  fun_induction Text.join sep pieces with
  | case1 => simp
  | case2 p => simp
  | case3 p ps _ ih => simp [ih, hsep]

namespace StubM

/-- A step returns a text without a line end. -/
def Fits (x : StubM String) : Prop :=
  ∃ text, x.outcome = .ok text ∧ '\n' ∉ text.toList

/-- A step returns texts without line ends. -/
def AllFit (x : StubM (List String)) : Prop :=
  ∃ texts, x.outcome = .ok texts ∧ ∀ t ∈ texts, '\n' ∉ t.toList

theorem fits_bind {α : Type} {x} {f : α → StubM String} [∀ a, Steady (f a)] :
    Fits (x >>= f) ↔ ∃ a, x.outcome = .ok a ∧ Fits (f a) := by
  simp only [Fits, outcome_bind_ok]
  constructor
  · rintro ⟨text, ⟨a, ha, htext⟩, hline⟩
    exact ⟨a, ha, text, htext, hline⟩
  · rintro ⟨a, ha, text, htext, hline⟩
    exact ⟨text, ⟨a, ha, htext⟩, hline⟩

theorem fits_bind_of_ok {α : Type} {x} {f : α → StubM String} {a} [∀ a, Steady (f a)]
    (hx : x.outcome = .ok a) : Fits (x >>= f) ↔ Fits (f a) := by
  rw [Fits, Fits, outcome_bind_of_ok hx]

theorem fits_pure {text} : Fits (pure text) ↔ '\n' ∉ text.toList := by
  simp [Fits]

variable {x : StubM String}

theorem fits_around {g : String → String} {Q : Prop}
    (hg : ∀ t, '\n' ∉ (g t).toList ↔ Q ∧ '\n' ∉ t.toList) :
    Fits (x >>= fun t => pure (g t)) ↔ Q ∧ Fits x := by
  rw [fits_bind]
  simp only [fits_pure, hg]
  constructor
  · rintro ⟨t, ht, hQ, hline⟩
    exact ⟨hQ, t, ht, hline⟩
  · rintro ⟨hQ, t, ht, hline⟩
    exact ⟨t, ht, hQ, hline⟩

theorem fits_enclosed {x before after} (hbefore : '\n' ∉ before.toList)
    (hafter : '\n' ∉ after.toList) :
    Fits (x >>= fun texts => pure (before ++ Text.join ", " texts ++ after)) ↔ AllFit x := by
  rw [fits_bind, AllFit]
  simp only [fits_pure, String.toList_append, List.mem_append,
    Text.mem_join (show '\n' ∉ ", ".toList by decide), hbefore, hafter, false_or, or_false,
    not_exists, not_and]

theorem allFit_nil : AllFit (pure []) := ⟨[], rfl, by simp⟩

theorem allFit_cons {y} [Steady y] :
    AllFit (x >>= fun t => y >>= fun ts => pure (t :: ts)) ↔ Fits x ∧ AllFit y := by
  simp only [AllFit, Fits, outcome_bind_ok, outcome_pure, Except.ok.injEq]
  constructor
  · rintro ⟨_, ⟨t, ht, ts, hts, rfl⟩, hline⟩
    obtain ⟨hline, hlines⟩ := List.forall_mem_cons.1 hline
    exact ⟨⟨t, ht, hline⟩, ts, hts, hlines⟩
  · rintro ⟨⟨t, ht, hline⟩, ts, hts, hlines⟩
    exact ⟨_, ⟨t, ht, ts, hts, rfl⟩, List.forall_mem_cons.2 ⟨hline, hlines⟩⟩

theorem allFit_one : AllFit (do let t ← x; return [t]) ↔ Fits x := by
  have := allFit_cons (x := x) (y := pure [])
  simpa [allFit_nil] using this

theorem fits_between {y between} [Steady y] (hbetween : '\n' ∉ between.toList) :
    Fits (do let l ← x; let r ← y; return l ++ between ++ r) ↔ Fits x ∧ Fits y := by
  rw [fits_bind]
  constructor
  · rintro ⟨l, hl, h⟩
    obtain ⟨r, hr, h⟩ := fits_bind.1 h
    simp only [fits_pure, String.toList_append, List.mem_append, not_or] at h
    exact ⟨⟨l, hl, h.1.1⟩, r, hr, h.2⟩
  · rintro ⟨⟨l, hl, hline⟩, r, hr, hline'⟩
    refine ⟨l, hl, fits_bind.2 ⟨r, hr, fits_pure.2 ?_⟩⟩
    simp [hline, hline', hbetween]

end StubM

/-! ## Expressions and types -/

/-- An expression prints, into one line. -/
def Syntax.Expr.FitsLine (e : Expr) : Prop :=
  ∃ text, e.render = .ok text ∧ '\n' ∉ text.toList

namespace Source

def piece (s : Source) (span : Span) : Except SpanError (List Char) :=
  s.offsetsFrom span [] >>= fun x => s.cut x.1 x.2

/-- The source text of a span can be cut out. -/
def Cuts (s : Source) (span : Span) : Prop :=
  ∃ text, s.piece span = .ok text

/-- The source text of a span stands in one line. -/
def SpanFits (s : Source) (span : Span) : Prop :=
  ∀ text, s.piece span = .ok text → '\n' ∉ text

/-- The expression that a string holds fits into a line; a string that holds no expression is
written as it is. -/
def QuotedFits (s : Source) (e : Expr) (points : List Nat) : Prop :=
  match s.readPoints points with
  | .ok inner => inner.FitsLine
  | .error .malformed => e.FitsLine
  | .error _ => False

mutual

/-- The text of a type fits into a line. `Literal` is copied from the source; behind the first
argument of `Annotated` there are no types. -/
def TypeFits (s : Source) : Expr → Prop
  | .subscript span value (.tuple _ elts) =>
    ∃ head, value.render = .ok head ∧
      if head = "Literal" then s.SpanFits span
      else '\n' ∉ head.toList ∧ s.ArgsFit (head == "Annotated") elts
  | .subscript span value index =>
    ∃ head, value.render = .ok head ∧
      if head = "Literal" then s.SpanFits span
      else '\n' ∉ head.toList ∧ s.TypeFits index
  | .tuple _ elts => s.TypesFit elts
  | .list _ elts => s.TypesFit elts
  | .binOp _ left .bitOr right => s.TypeFits left ∧ s.TypeFits right
  | .constant span (.str points marked) => s.QuotedFits (.constant span (.str points marked)) points
  | e => e.FitsLine

/-- The arguments of a type fit into a line. -/
def ArgsFit (s : Source) (onlyFirst : Bool) : List Expr → Prop
  | [] => True
  | first :: rest =>
    s.TypeFits first ∧ if onlyFirst then ∀ e ∈ rest, e.FitsLine else s.TypesFit rest

/-- The texts of several types fit into a line. -/
def TypesFit (s : Source) : List Expr → Prop
  | [] => True
  | e :: rest => s.TypeFits e ∧ s.TypesFit rest

end

open StubM

variable {s : Source}

theorem spanText_ok {span text} : (s.spanText span).outcome = .ok text ↔
      ∃ cs, s.piece span = .ok cs ∧ text = String.ofList cs := by
  unfold spanText piece
  rw [outcome_bind_ok]
  cases hoffsets : s.offsetsFrom span [] with
  | error cause => simp [bind, Except.bind, ofResult_ok]
  | ok x =>
    simp only [ofResult_ok, Except.ok.injEq, exists_eq_left']
    rw [outcome_bind_ok]
    simp only [ofResult_ok, outcome_pure, Except.ok.injEq, bind, Except.bind, @eq_comm _ text]

theorem spanText_fits {span} (hcut : s.Cuts span) : Fits (s.spanText span) ↔ s.SpanFits span := by
  obtain ⟨cs, hcs⟩ := hcut
  simp [Fits, spanText_ok, SpanFits, hcs]

theorem quotedTypeText_fits {e points} :
    Fits (s.quotedTypeText e points) ↔ s.QuotedFits e points := by
  unfold quotedTypeText QuotedFits Fits
  cases s.readPoints points with
  | ok inner => simp [Expr.FitsLine]
  | error cause => cases cause <;> simp [Expr.FitsLine]

theorem plainTexts_ok {es texts} :
    (plainTexts es).outcome = .ok texts ↔ es.map Expr.render = texts.map .ok := by
  induction es generalizing texts with
  | nil => cases texts <;> simp [plainTexts]
  | cons e es ih =>
    rw [plainTexts, outcome_bind_ok]
    constructor
    · rintro ⟨t, ht, h⟩
      obtain ⟨ts, hts, h⟩ := outcome_bind_ok.1 h
      cases h
      simp [exprLine_ok.1 ht, ih.1 hts]
    · cases texts with
      | nil => simp
      | cons t ts =>
        intro h
        obtain ⟨ht, hts⟩ := List.cons.inj h
        exact ⟨t, exprLine_ok.2 ht, outcome_bind_ok.2 ⟨ts, ih.2 hts, rfl⟩⟩

theorem exprLine_fits {e} : Fits (exprLine e) ↔ e.FitsLine := by
  simp [Fits, Expr.FitsLine]

theorem plainTexts_fits {es} : AllFit (plainTexts es) ↔ ∀ e ∈ es, e.FitsLine := by
  induction es with
  | nil => simpa [plainTexts] using allFit_nil
  | cons e es ih =>
    rw [plainTexts, allFit_cons, ih, exprLine_fits, List.forall_mem_cons]

theorem applied_fits {span value} {f : String → StubM (List String)} [∀ head, Steady (f head)]
    (hcut : s.Cuts span) : Fits (do
      let head ← exprLine value
      if head == "Literal" then s.spanText span else appliedText head <$> f head) ↔
    ∃ head, value.render = .ok head ∧
      if head = "Literal" then s.SpanFits span else '\n' ∉ head.toList ∧ AllFit (f head) := by
  have happlied : ∀ head, '\n' ∉ head.toList →
      (Fits (appliedText head <$> f head) ↔ AllFit (f head)) := fun head hhead => by
    rw [map_eq_pure_bind]
    exact fits_enclosed (by simpa using hhead) (by decide)
  rw [fits_bind]
  simp only [exprLine_ok, beq_iff_eq]
  refine exists_congr fun head => and_congr_right fun _ => ?_
  split
  · exact spanText_fits hcut
  · constructor
    · intro h
      have hhead : '\n' ∉ head.toList := by
        rw [map_eq_pure_bind, fits_bind] at h
        obtain ⟨_, _, h⟩ := h
        simp only [fits_pure, appliedText, String.toList_append, List.mem_append, not_or] at h
        exact h.1.1.1
      exact ⟨hhead, (happlied head hhead).1 h⟩
    · rintro ⟨hhead, h⟩
      exact (happlied head hhead).2 h

mutual

theorem typeText_fits (s : Source) (e : Expr) (h : e.TypeSpans s.Cuts) :
    Fits (s.typeText e) ↔ s.TypeFits e := by
  unfold typeText
  split
  · next span value _ elts =>
    have hargs := fun onlyFirst => argTexts_fits s onlyFirst elts h.2
    rw [TypeFits, applied_fits h.1]
    simp only [hargs]
  · rw [TypeFits]
    · next span value index _ =>
      have hone : ∀ head : String,
          (do let arg ← s.typeText index; return appliedText head [arg])
            = appliedText head <$> (do let arg ← s.typeText index; return [arg]) := by simp
      simp only [hone]
      rw [applied_fits h.1]
      simp only [allFit_one, typeText_fits s index h.2]
    · assumption
  iterate 2 rw [TypeFits, fits_enclosed (by decide) (by decide), typeTexts_fits _ _ h]
  · next left right =>
    rw [TypeFits, ← typeText_fits s left h.1, ← typeText_fits s right h.2]
    exact fits_between (by decide)
  · rw [TypeFits, quotedTypeText_fits]
  · rw [TypeFits, exprLine_fits]
    all_goals assumption

theorem argTexts_fits (s : Source) (onlyFirst : Bool) (es : List Expr)
    (h : TypeSpansAll s.Cuts es) : AllFit (s.argTexts onlyFirst es) ↔ s.ArgsFit onlyFirst es := by
  unfold argTexts
  split
  · simpa [ArgsFit] using allFit_nil
  · next first rest =>
    rw [ArgsFit, ← typeText_fits s first h.1]
    cases onlyFirst with
    | true =>
      rw [if_pos rfl, ← plainTexts_fits]
      exact allFit_cons
    | false =>
      rw [if_neg Bool.false_ne_true, ← typeTexts_fits s rest h.2]
      exact allFit_cons

theorem typeTexts_fits (s : Source) : (es : List Expr) → TypeSpansAll s.Cuts es →
    (AllFit (s.typeTexts es) ↔ s.TypesFit es)
  | [], _ => by simpa [typeTexts, TypesFit] using allFit_nil
  | e :: es, h => by
    rw [typeTexts, TypesFit, allFit_cons, typeText_fits s e h.1, typeTexts_fits s es h.2]

end

/-! ## Signatures -/

/-- The name and the type of a parameter fit into a line. -/
def ParamFits (s : Source) (p : Param Expr) : Prop :=
  '\n' ∉ p.name.toList ∧ ∀ e ∈ p.annot, s.TypeFits e

theorem annotText_fits {annot} (h : ∀ e ∈ annot, e.TypeSpans s.Cuts) :
    Fits (s.annotText annot) ↔ ∀ e ∈ annot, s.TypeFits e := by
  cases annot with
  | none => simp [annotText, fits_pure]
  | some e =>
    rw [annotText, fits_around fun text => show _ ↔ True ∧ _ by simp, true_and,
      typeText_fits s e (h e rfl)]
    simp

theorem defaultText_elided (value : Option Expr) :
    ∃ text, defaultText .elided value = pure text ∧ '\n' ∉ text.toList := by
  cases value with
  | none => exact ⟨"", rfl, by decide⟩
  | some e => exact ⟨" = ...", rfl, by decide⟩

theorem paramText_fits {p default} (h : ∀ e ∈ p.annot, e.TypeSpans s.Cuts) :
    Fits (s.paramText .elided p default) ↔ s.ParamFits p := by
  obtain ⟨shown, hshown, hline⟩ := defaultText_elided default
  unfold paramText
  rw [fits_bind_of_ok (sayTypeComment_outcome ..), hshown, ParamFits, ← annotText_fits h]
  simp only [pure_bind]
  exact fits_around fun text => by simp [hline]

theorem paramTexts_fits {ps} (h : ∀ p ∈ ps, ∀ e ∈ p.1.annot, e.TypeSpans s.Cuts) :
    AllFit (s.paramTexts .elided ps) ↔ ∀ p ∈ ps, s.ParamFits p.1 := by
  induction ps with
  | nil => simpa [paramTexts] using allFit_nil
  | cons p ps ih =>
    obtain ⟨hp, hps⟩ := List.forall_mem_cons.1 h
    rw [paramTexts, allFit_cons, paramText_fits hp, ih hps, List.forall_mem_cons]

/-- Parameters, each with its default value, if there are as many places for these. -/
theorem paramTexts_zip_fits {ps : List (Param Expr)} {defaults : List (Option Expr)}
    (hlen : ps.length ≤ defaults.length)
    (h : ∀ p ∈ ps, ∀ e ∈ p.annot, e.TypeSpans s.Cuts) :
    AllFit (s.paramTexts .elided (ps.zip defaults)) ↔ ∀ p ∈ ps, s.ParamFits p := by
  have hfst : (ps.zip defaults).map Prod.fst = ps := List.map_fst_zip hlen
  rw [paramTexts_fits fun p hp => h p.1 (List.of_mem_zip hp).1]
  conv => rhs; rw [← hfst]
  simp

theorem variadicText_fits {sign p} (hsign : '\n' ∉ sign.toList)
    (h : ∀ q ∈ p.toList, ∀ e ∈ q.annot, e.TypeSpans s.Cuts) :
    AllFit (s.variadicText sign p) ↔ ∀ q ∈ p.toList, s.ParamFits q := by
  cases p with
  | none => simpa [variadicText] using allFit_nil
  | some q =>
    have hone : (do let t ← s.paramText .elided q none; return [sign ++ t])
        = (do
          let t ← (do let t ← s.paramText .elided q none; return sign ++ t)
          return [t]) := by
      simp
    rw [variadicText, hone, allFit_one, fits_around fun text =>
      show _ ↔ True ∧ _ by simp [hsign],
      true_and, paramText_fits (h q (by simp))]
    simp

theorem alignDefaults_length {α : Type} (count : Nat) (defaults : List α) :
    count ≤ (alignDefaults count defaults).length := by
  simp only [alignDefaults, List.length_append, List.length_replicate, List.length_map]
  omega

theorem signaturePieces_fits {ps : Params Expr} (h : ps.Placed s.Cuts) :
    AllFit (s.signaturePieces ps) ↔ ∀ p ∈ ps.all, s.ParamFits p := by
  have hcount := alignDefaults_length (ps.posOnly.length + ps.args.length) ps.defaults
  have htypes := h.types
  simp only [Params.all, List.forall_mem_append] at htypes ⊢
  obtain ⟨⟨⟨⟨hposOnly, hargs⟩, hvararg⟩, hkwOnly⟩, hkwarg⟩ := htypes
  rw [← paramTexts_zip_fits (Nat.le_trans (Nat.le_add_right _ _) hcount) hposOnly,
    ← paramTexts_zip_fits (List.length_drop ▸ Nat.le_sub_of_add_le' hcount) hargs,
    ← variadicText_fits (show '\n' ∉ "*".toList by decide) hvararg,
    ← paramTexts_zip_fits (Nat.le_of_eq h.defaults.symm) hkwOnly,
    ← variadicText_fits (show '\n' ∉ "**".toList by decide) hkwarg]
  -- the marks between the parameters have no line ends
  have hslash : ∀ t ∈ (if ps.posOnly.isEmpty then [] else ["/"] : List String),
      '\n' ∉ t.toList := by
    split <;> simp
  have hstar :
      ∀ t ∈ (if ps.vararg.isNone && !ps.kwOnly.isEmpty then ["*"] else [] : List String),
      '\n' ∉ t.toList := by
    split <;> simp
  simp only [AllFit, signaturePieces, outcome_bind_ok, outcome_pure, Except.ok.injEq]
  constructor
  · rintro ⟨_, ⟨posOnly, h₁, args, h₂, vararg, h₃, kwOnly, h₄, kwarg, h₅, rfl⟩,
      hline⟩
    simp only [List.forall_mem_append] at hline
    obtain ⟨⟨⟨⟨⟨⟨l₁, _⟩, l₂⟩, l₃⟩, _⟩, l₄⟩, l₅⟩ := hline
    exact ⟨⟨⟨⟨⟨_, h₁, l₁⟩, ⟨_, h₂, l₂⟩⟩, ⟨_, h₃, l₃⟩⟩,
      ⟨_, h₄, l₄⟩⟩, ⟨_, h₅, l₅⟩⟩
  · rintro ⟨⟨⟨⟨⟨posOnly, h₁, l₁⟩, ⟨args, h₂, l₂⟩⟩,
      ⟨vararg, h₃, l₃⟩⟩, ⟨kwOnly, h₄, l₄⟩⟩, ⟨kwarg, h₅, l₅⟩⟩
    refine ⟨_, ⟨posOnly, h₁, args, h₂, vararg, h₃, kwOnly, h₄, kwarg, h₅, rfl⟩,
      ?_⟩
    simp only [List.forall_mem_append]
    exact ⟨⟨⟨⟨⟨⟨l₁, hslash⟩, l₂⟩, l₃⟩, hstar⟩, l₄⟩, l₅⟩

theorem signatureText_fits {ps} (h : ps.Placed s.Cuts) :
    Fits (s.signatureText ps) ↔ ∀ p ∈ ps.all, s.ParamFits p := by
  rw [← signaturePieces_fits h, signatureText, fits_bind, AllFit]
  simp only [fits_pure, Text.mem_join (show '\n' ∉ ", ".toList by decide), not_exists, not_and]

end Source

end TypeStub
