import TypeStub.Proofs.Stub.Erasure
import TypeStub.Proofs.Stub.Growth
import TypeStub.Proofs.Stub.Stubbable
/-!
# Implementations do not reach stubs

Two sources that are the same once their implementations are erased have the same stub
(`generate_eq_of_erased`), if the strings and the `Literal[…]` that stubs copy are the same in
both.

The first pass over the one source and over the other builds the same tree: step by step, both grow
by the same rule. From there on there is only one text.
-/

namespace TypeStub

open TypeStub.Syntax StubM

/-- What follows a step has to be the same only for what the step can return. -/
theorem StubM.bind_congr_of_ok {α β : Type} {x} [hx : Steady x] {f g : α → StubM β}
    (h : ∀ a, x.outcome = .ok a → f a = g a) : x >>= f = x >>= g := by
  funext log
  change (x >>= f).run.run log = (x >>= g).run.run log
  rw [run_run_bind, run_run_bind, hx.eq log]
  cases ha : x.outcome with
  | error cause => rfl
  | ok a => simp only [h a ha]

/-- What two steps return is related, if both return. -/
def StubM.Relates {α β : Type} (R : α → β → Prop) (x : StubM α) (y : StubM β) : Prop :=
  ∀ ⦃a b⦄, x.outcome = .ok a → y.outcome = .ok b → R a b

namespace StubM.Relates

variable {α β : Type} {R : α → α → Prop} {S : β → β → Prop} {x y : StubM α}
  {f g : α → StubM β}

theorem refl (hR : ∀ a, R a a) : Relates R x x := by
  intro a b ha hb
  obtain rfl := Except.ok.inj (ha.symm.trans hb)
  exact hR a

theorem pure {a b} (h : R a b) : Relates R (pure a) (pure b) := by
  rintro _ _ ⟨⟩ ⟨⟩
  exact h

protected theorem rfl : Relates Eq x x := .refl fun _ => Eq.refl _

theorem of_eq (h : x = y) : Relates Eq x y := h ▸ .rfl

theorem bind [∀ a, Steady (f a)] [∀ a, Steady (g a)] (hx : Relates R x y)
    (hf : ∀ a b, R a b → Relates S (f a) (g b)) : Relates S (x >>= f) (y >>= g) := by
  intro c d hc hd
  obtain ⟨a, ha, hc⟩ := outcome_bind_ok.1 hc
  obtain ⟨b, hb, hd⟩ := outcome_bind_ok.1 hd
  exact hf a b (hx ha hb) hc hd

theorem seq [∀ a, Steady (f a)] [∀ a, Steady (g a)] (hx : Relates Eq x y)
    (hf : ∀ a, Relates S (f a) (g a)) : Relates S (x >>= f) (y >>= g) :=
  hx.bind fun a _ hab => hab ▸ hf a

end StubM.Relates

theorem StubM.exprLine_congr {e₁ e₂} (h : e₁.unplaced = e₂.unplaced) :
    exprLine e₁ = exprLine e₂ := by
  rw [exprLine, exprLine, render_eq_of_unplaced h]

namespace Source

def withText (s : Source) (text : List Char) : Source := { s with text }

/-- Places in one source and places in another hold the same texts. -/
def SameTexts (s t : Source) (spans₁ spans₂ : List Span) : Prop :=
  spans₁.map s.piece = spans₂.map t.piece

variable {s t : Source}

/-- The texts at the first places decide a proposition, whatever is copied behind them. -/
def Decides (s t : Source) (spans₁ spans₂ : List Span) (P : Prop) : Prop :=
  ∀ rest₁ rest₂, SameTexts s t (spans₁ ++ rest₁) (spans₂ ++ rest₂) →
    P ∧ SameTexts s t rest₁ rest₂

namespace Decides

variable {a₁ a₂ b₁ b₂ : List Span} {P Q : Prop}

theorem nil (hP : P) : Decides s t [] [] P :=
  fun _ _ ht => ⟨hP, ht⟩

theorem imp (h : Decides s t a₁ a₂ P) (hPQ : P → Q) : Decides s t a₁ a₂ Q :=
  fun _ _ ht => (h _ _ ht).imp_left hPQ

theorem append (ha : Decides s t a₁ a₂ P) (hb : Decides s t b₁ b₂ Q) :
    Decides s t (a₁ ++ b₁) (a₂ ++ b₂) (P ∧ Q) := by
  intro rest₁ rest₂ ht
  rw [List.append_assoc, List.append_assoc] at ht
  obtain ⟨hP, ht⟩ := ha _ _ ht
  obtain ⟨hQ, ht⟩ := hb _ _ ht
  exact ⟨⟨hP, hQ⟩, ht⟩

theorem all {ι : Type} [Inhabited ι] {P : ι → Prop} (h : ∀ i, Decides s t a₁ a₂ (P i)) :
    Decides s t a₁ a₂ (∀ i, P i) :=
  fun _ _ ht => ⟨fun i => (h i _ _ ht).1, (h default _ _ ht).2⟩

theorem holds (h : Decides s t a₁ a₂ P) (ht : SameTexts s t a₁ a₂) : P :=
  (h [] [] (by rwa [List.append_nil, List.append_nil])).1

end Decides

theorem spanText_decided (span₁ span₂ : Span) :
    Decides s t [span₁] [span₂] (s.spanText span₁ = t.spanText span₂) := by
  intro rest₁ rest₂ ht
  have hspan : ∀ (s : Source) (span : Span),
      s.spanText span = StubM.ofSpan (s.piece span) >>= fun text => pure (String.ofList text) := by
    intro s span
    unfold spanText piece
    cases s.offsetsFrom span [] <;> rfl
  obtain ⟨hpiece, ht⟩ := List.cons.inj ht
  exact ⟨by rw [hspan, hspan, hpiece], ht⟩

/-! ## Types -/

section Types

variable (s : Source) (text : List Char)

/-- A type has the same text in another source. -/
def TypeAgrees (e₁ : Expr) : Prop :=
  ∀ e₂, e₁.unplaced = e₂.unplaced →
    Decides s (s.withText text) e₁.literalSpans e₂.literalSpans
      (s.typeText e₁ = (s.withText text).typeText e₂)

def TypesAgree (es₁ : List Expr) : Prop :=
  ∀ es₂ : List Expr, es₁.map Expr.unplaced = es₂.map Expr.unplaced →
    Decides s (s.withText text) (literalSpansAll es₁) (literalSpansAll es₂)
      (s.typeTexts es₁ = (s.withText text).typeTexts es₂)

def ArgsAgree (onlyFirst : Bool) (es₁ : List Expr) : Prop :=
  ∀ es₂ : List Expr, es₁.map Expr.unplaced = es₂.map Expr.unplaced →
    Decides s (s.withText text) (literalSpansAll es₁) (literalSpansAll es₂)
      (s.argTexts onlyFirst es₁ = (s.withText text).argTexts onlyFirst es₂)

end Types

variable {text : List Char}

theorem plainTexts_unplaced (es : List Expr) :
    plainTexts (es.map Expr.unplaced) = plainTexts es := by
  induction es with
  | nil => rfl
  | cons e rest ih =>
    rw [List.map_cons, plainTexts, plainTexts, ih, exprLine, exprLine, render_unplaced]

theorem plainTexts_congr {es₁ es₂} (h : es₁.map Expr.unplaced = es₂.map Expr.unplaced) :
    plainTexts es₁ = plainTexts es₂ := by
  rw [← plainTexts_unplaced es₁, h, plainTexts_unplaced]

/-- A type that is applied: its source text is copied, or its arguments are looked at. -/
theorem subscript_over {span₁ span₂ value₁ value₂ index₁ index₂}
    {f g : String → StubM String} (hvalue : value₁.unplaced = value₂.unplaced)
    (hargs : ∀ head, Decides s t index₁.literalSpans index₂.literalSpans (f head = g head)) :
    Decides s t (Expr.subscript span₁ value₁ index₁).literalSpans
      (Expr.subscript span₂ value₂ index₂).literalSpans
      ((exprLine value₁ >>= fun head => if head == "Literal" then s.spanText span₁ else f head)
        = exprLine value₂ >>= fun head =>
          if head == "Literal" then t.spanText span₂ else g head) := by
  -- the head of a subscript decides whether its source text is copied
  have hhead : ∀ head, (exprLine value₁).outcome = .ok head →
      value₁.isLiteralHead = (head == "Literal") := by
    intro head hok
    rw [Expr.isLiteralHead, exprLine_ok.1 hok]
  have hsame : value₂.isLiteralHead = value₁.isLiteralHead := by
    rw [Expr.isLiteralHead, Expr.isLiteralHead, render_eq_of_unplaced hvalue]
  rw [Expr.literalSpans, Expr.literalSpans, hsame, exprLine_congr hvalue.symm]
  split
  · next hlit =>
    refine (spanText_decided span₁ span₂).imp fun hspan => bind_congr_of_ok fun head hok => ?_
    rw [← hhead head hok, if_pos hlit, if_pos hlit, hspan]
  · next hlit =>
    refine (Decides.all hargs).imp fun hfg => bind_congr_of_ok fun head hok => ?_
    rw [← hhead head hok, if_neg hlit, if_neg hlit, hfg]

theorem typeAgrees_other {e}
    (hsubscript : ∀ span value index, e = .subscript span value index → False)
    (htuple : ∀ span elts, e = .tuple span elts → False)
    (hlist : ∀ span elts, e = .list span elts → False)
    (hunion : ∀ span left right, e = .binOp span left .bitOr right → False)
    (hstring : ∀ span points marked, e = .constant span (.str points marked) → False) :
    TypeAgrees s text e := by
  intro e₂ h
  have hsubscript₂ : ∀ span value index, e₂ = .subscript span value index → False := by
    rintro span value index rfl
    obtain ⟨_, _, _, rfl, _⟩ := subscript_of_unplaced h.symm
    exact hsubscript _ _ _ rfl
  have htuple₂ : ∀ span elts, e₂ = .tuple span elts → False := by
    rintro span elts rfl
    obtain ⟨_, _, rfl, _⟩ := tuple_of_unplaced h.symm
    exact htuple _ _ rfl
  have hlist₂ : ∀ span elts, e₂ = .list span elts → False := by
    rintro span elts rfl
    obtain ⟨_, _, rfl, _⟩ := list_of_unplaced h.symm
    exact hlist _ _ rfl
  have hunion₂ : ∀ span left right, e₂ = .binOp span left .bitOr right → False := by
    rintro span left right rfl
    obtain ⟨_, _, _, rfl, _⟩ := binOp_of_unplaced h.symm
    exact hunion _ _ _ rfl
  rw [Expr.literalSpans.eq_5 e hsubscript htuple hlist hunion,
    Expr.literalSpans.eq_5 e₂ hsubscript₂ htuple₂ hlist₂ hunion₂,
    typeText.eq_7 _ e (fun _ _ _ _ => hsubscript _ _ _) hsubscript htuple hlist hunion hstring,
    typeText.eq_7 _ e₂ (fun _ _ _ _ =>
    hsubscript₂ _ _ _) hsubscript₂ htuple₂ hlist₂ hunion₂,
    exprLine_congr h]
  · exact .nil rfl
  · rintro span points marked rfl
    obtain ⟨_, rfl⟩ := constant_of_unplaced h.symm
    exact hstring _ _ _ rfl

/-- The text of a type tells nothing about its place, except what is copied from there. -/
theorem typeText_over (e : Expr) : TypeAgrees s text e := by
  refine typeText.induct (TypeAgrees s text) (TypesAgree s text) (ArgsAgree s text) ?subscriptTuple
    ?subscript ?tuple ?list ?union ?string ?other ?nil ?cons ?noArgs ?args e
  case subscriptTuple =>
    intro span value inner elts ih e₂ h
    obtain ⟨span₂, value₂, index₂, rfl, hvalue, hindex⟩ := subscript_of_unplaced h
    obtain ⟨inner₂, elts₂, rfl, helts⟩ := tuple_of_unplaced hindex
    rw [typeText, typeText]
    exact subscript_over hvalue fun head => (ih head elts₂ helts).imp fun h => by rw [h]
  case subscript =>
    intro span value index hindex ih e₂ h
    obtain ⟨span₂, value₂, index₂, rfl, hvalue, hindex₂⟩ := subscript_of_unplaced h
    have hnot : ∀ span elts, index₂ = .tuple span elts → False := by
      rintro span elts rfl
      obtain ⟨_, _, rfl, _⟩ := tuple_of_unplaced hindex₂.symm
      exact hindex _ _ rfl
    rw [typeText.eq_2 _ _ _ _ hindex, typeText.eq_2 _ _ _ _ hnot]
    exact subscript_over hvalue fun _ => (ih index₂ hindex₂).imp fun h => by rw [h]
  case tuple =>
    intro span elts ih e₂ h
    obtain ⟨span₂, elts₂, rfl, helts⟩ := tuple_of_unplaced h
    exact (ih elts₂ helts).imp fun h => by rw [typeText, typeText, h]
  case list =>
    intro span elts ih e₂ h
    obtain ⟨span₂, elts₂, rfl, helts⟩ := list_of_unplaced h
    exact (ih elts₂ helts).imp fun h => by rw [typeText, typeText, h]
  case union =>
    intro span left right ihl ihr e₂ h
    obtain ⟨span₂, left₂, right₂, rfl, hleft, hright⟩ := binOp_of_unplaced h
    refine ((ihl left₂ hleft).append (ihr right₂ hright)).imp ?_
    rintro ⟨hl, hr⟩
    rw [typeText, typeText, hl, hr]
  case string =>
    intro span points marked e₂ h
    obtain ⟨span₂, rfl⟩ := constant_of_unplaced h
    rw [typeText, typeText, quotedTypeText, quotedTypeText, exprLine_congr h]
    exact .nil rfl
  case other => exact fun e _ h₁ h₂ h₃ h₄ h₅ => typeAgrees_other h₁ h₂ h₃ h₄ h₅
  case nil =>
    intro es₂ h
    rw [List.map_eq_nil_iff.1 h.symm]
    exact .nil rfl
  case cons =>
    intro e rest ihe ihrest es₂ h
    obtain ⟨e₂, rest₂, rfl, he, hrest⟩ := List.map_eq_cons_iff.1 h.symm
    refine ((ihe e₂ he.symm).append (ihrest rest₂ hrest.symm)).imp ?_
    rintro ⟨he, hrest⟩
    rw [typeTexts, typeTexts, he, hrest]
  case noArgs =>
    intro onlyFirst es₂ h
    rw [List.map_eq_nil_iff.1 h.symm]
    exact .nil rfl
  case args =>
    intro onlyFirst e rest ihe ihrest es₂ h
    obtain ⟨e₂, rest₂, rfl, he, hrest⟩ := List.map_eq_cons_iff.1 h.symm
    refine ((ihe e₂ he.symm).append (ihrest rest₂ hrest.symm)).imp ?_
    rintro ⟨he, htexts⟩
    rw [argTexts, argTexts, he, htexts, plainTexts_congr hrest.symm]

/-! ## Signatures -/

theorem annotText_over {annot₁ annot₂}
    (h : annot₁.map Expr.unplaced = annot₂.map Expr.unplaced) :
    Decides s (s.withText text) (literalSpansOption annot₁) (literalSpansOption annot₂)
      (s.annotText annot₁ = (s.withText text).annotText annot₂) := by
  cases annot₁ with
  | none =>
    rw [Option.map_eq_none_iff.1 h.symm]
    exact .nil rfl
  | some e₁ =>
    obtain ⟨e₂, rfl, he⟩ := Option.map_eq_some_iff.1 h.symm
    exact (typeText_over e₁ e₂ he.symm).imp fun h => by rw [annotText, annotText, h]

theorem defaultText_congr {value₁ value₂} (h : value₁.isSome = value₂.isSome) :
    defaultText .elided value₁ = defaultText .elided value₂ := by
  cases value₁ <;> cases value₂ <;> first | rfl | cases h

theorem paramText_over {p₁ p₂} (h : unplacedParam p₁ = unplacedParam p₂) :
    Decides s (s.withText text) (literalSpansOption p₁.annot) (literalSpansOption p₂.annot)
      (∀ default₁ default₂, default₁.isSome = default₂.isSome →
        s.paramText .elided p₁ default₁
        = (s.withText text).paramText .elided p₂ default₂) := by
  have hannot := congrArg Param.annot h
  rw [annot_unplacedParam, annot_unplacedParam] at hannot
  obtain ⟨name₁, annot₁, comment₁⟩ := p₁
  obtain ⟨name₂, annot₂, comment₂⟩ := p₂
  simp only [unplacedParam, Param.mk.injEq] at h
  obtain ⟨rfl, _, rfl⟩ := h
  refine (annotText_over hannot).imp fun htext default₁ default₂ hdefault => ?_
  rw [paramText, paramText, htext, defaultText_congr hdefault]

theorem paramTexts_over {ps₁ ps₂} (h : ps₁.map unplacedParam = ps₂.map unplacedParam) :
    Decides s (s.withText text) (paramSpans ps₁) (paramSpans ps₂)
      (∀ ds₁ ds₂, ds₁.map Option.isSome = ds₂.map Option.isSome →
        s.paramTexts .elided (ps₁.zip ds₁)
          = (s.withText text).paramTexts .elided (ps₂.zip ds₂)) := by
  induction ps₁ generalizing ps₂ with
  | nil =>
    rw [List.map_eq_nil_iff.1 h.symm]
    exact .nil fun _ _ _ => rfl
  | cons p₁ rest₁ ih =>
    obtain ⟨p₂, rest₂, rfl, hp, hrest⟩ := List.map_eq_cons_iff.1 h.symm
    refine ((paramText_over hp.symm).append (ih hrest.symm)).imp ?_
    rintro ⟨hp, hrest⟩ ds₁ ds₂ hds
    cases ds₁ with
    | nil =>
      obtain rfl := List.map_eq_nil_iff.1 hds.symm
      rfl
    | cons d₁ ds₁ =>
      obtain ⟨d₂, ds₂, rfl, hd, hds⟩ := List.map_eq_cons_iff.1 hds.symm
      rw [List.zip_cons_cons, List.zip_cons_cons, paramTexts, paramTexts, hp _ _ hd.symm,
        hrest _ _ hds.symm]

theorem variadicText_over (sign : String) {p₁ p₂}
    (h : p₁.map unplacedParam = p₂.map unplacedParam) :
    Decides s (s.withText text) (paramSpans p₁.toList) (paramSpans p₂.toList)
      (s.variadicText sign p₁ = (s.withText text).variadicText sign p₂) := by
  cases p₁ with
  | none =>
    rw [Option.map_eq_none_iff.1 h.symm]
    exact .nil rfl
  | some p₁ =>
    obtain ⟨p₂, rfl, hp⟩ := Option.map_eq_some_iff.1 h.symm
    simp only [Option.toList, paramSpans, List.append_nil]
    refine (paramText_over hp.symm).imp fun htext => ?_
    rw [variadicText, variadicText, htext _ _ rfl]

/-- How many parameters have a default value decides which ones do. -/
theorem map_isSome_alignDefaults {ds₁ ds₂ : List Expr} (count : Nat)
    (h : ds₁.length = ds₂.length) :
    (alignDefaults count ds₁).map Option.isSome
    = (alignDefaults count ds₂).map Option.isSome := by
  simp only [alignDefaults, h, List.map_append, List.map_map]
  congr 1
  exact List.ext_getElem (by simpa using h) (by simp)

theorem signatureText_over {ps₁ ps₂} (h : ps₁.erased = ps₂.erased) :
    Decides s (s.withText text) ps₁.literalSpans ps₂.literalSpans
      (s.signatureText ps₁ = (s.withText text).signatureText ps₂) := by
  simp only [Params.erased, Params.mk.injEq] at h
  obtain ⟨hpos, hargs, hvararg, hkwOnly, hkwDefaults, hkwarg, hdefaults⟩ := h
  have hposLength : ps₁.posOnly.length = ps₂.posOnly.length := by
    simpa using congrArg List.length hpos
  have hargsLength : ps₁.args.length = ps₂.args.length := by
    simpa using congrArg List.length hargs
  have haligned := map_isSome_alignDefaults (ps₂.posOnly.length + ps₂.args.length)
    (by simpa using congrArg List.length hdefaults : ps₁.defaults.length = ps₂.defaults.length)
  have hdropped := congrArg (List.drop ps₂.posOnly.length) haligned
  rw [← List.map_drop, ← List.map_drop] at hdropped
  have hkwAligned : ps₁.kwDefaults.map Option.isSome = ps₂.kwDefaults.map Option.isSome := by
    simpa [Function.comp_def] using congrArg (List.map Option.isSome) hkwDefaults
  have hslash : ps₁.posOnly.isEmpty = ps₂.posOnly.isEmpty := by
    simpa using congrArg List.isEmpty hpos
  have hstar : ps₁.vararg.isNone = ps₂.vararg.isNone := by
    simpa using congrArg Option.isNone hvararg
  have hkwEmpty : ps₁.kwOnly.isEmpty = ps₂.kwOnly.isEmpty := by
    simpa using congrArg List.isEmpty hkwOnly
  refine ((paramTexts_over hpos).append ((paramTexts_over hargs).append
    ((variadicText_over "*" hvararg).append ((paramTexts_over hkwOnly).append
      (variadicText_over "**" hkwarg))))).imp ?_
  rintro ⟨hposTexts, hargsTexts, hvarargText, hkwOnlyTexts, hkwargText⟩
  simp only [signatureText, signaturePieces, hposLength, hargsLength, hslash, hstar, hkwEmpty,
    hposTexts _ _ haligned, hargsTexts _ _ hdropped, hvarargText, hkwOnlyTexts _ _ hkwAligned,
    hkwargText]

end Source

namespace Session

open Source

def withText (s : Session) (text : List Char) : Session :=
  { s with source := s.source.withText text }

variable {s : Session} {text : List Char} {parentTags : List Tag} {last : Option (List Tag)}

/-! ## Steps without statements inside -/

theorem decoratorLines_congr {ds₁ ds₂} (h : ds₁.map Expr.unplaced = ds₂.map Expr.unplaced) :
    decoratorLines ds₁ = decoratorLines ds₂ := by
  rw [decoratorLines, decoratorLines, plainTexts_congr h]

theorem classKeywords_congr {ks₁ ks₂}
    (h : ks₁.map unplacedKeyword = ks₂.map unplacedKeyword) :
    classKeywords ks₁ = classKeywords ks₂ := by
  induction ks₁ generalizing ks₂ with
  | nil => rw [List.map_eq_nil_iff.1 h.symm]
  | cons k₁ rest₁ ih =>
    obtain ⟨k₂, rest₂, rfl, hk, hrest⟩ := List.map_eq_cons_iff.1 h.symm
    have hname := congrArg Keyword.name hk
    rw [name_unplacedKeyword, name_unplacedKeyword] at hname
    have hvalue := congrArg Keyword.value hk
    rw [value_unplacedKeyword, value_unplacedKeyword] at hvalue
    rw [classKeywords, classKeywords, hname, exprLine_congr hvalue, ih hrest.symm]

theorem classLine_congr {head₁ head₂} (h : head₁.unplaced = head₂.unplaced) :
    classLine head₁ = classLine head₂ := by
  obtain ⟨hname, hbases, hkeywords, _⟩ := ClassHead.unplaced_eq_iff.1 h
  rw [classLine, classLine, hname, plainTexts_congr hbases, classKeywords_congr hkeywords]

theorem stubImport_over {names} {remade₁ remade₂ : List Alias → Stmt}
    (h : ∀ kept, (remade₁ kept).render = (remade₂ kept).render) :
    s.stubImport parentTags names remade₁ = (s.withText text).stubImport parentTags names
    remade₂ := by
  simp only [stubImport, h]
  rfl

theorem stubAssign_over {targets₁ targets₂ simple annot₁ annot₂ value₁ value₂}
    (htargets : targets₁.map Expr.unplaced = targets₂.map Expr.unplaced)
    (hannot : s.optionType annot₁ = (s.withText text).optionType annot₂)
    (hvalue : value₁.map Expr.unplaced = value₂.map Expr.unplaced) :
    s.stubAssign parentTags targets₁ simple annot₁ value₁
      = (s.withText text).stubAssign parentTags targets₂ simple annot₂ value₂ := by
  have hline : optionLine value₁ = optionLine value₂ := by
    cases value₁ with
    | none => rw [Option.map_eq_none_iff.1 hvalue.symm]
    | some e₁ =>
      obtain ⟨e₂, rfl, he⟩ := Option.map_eq_some_iff.1 hvalue.symm
      rw [optionLine, optionLine, exprLine_congr he]
  have htext : targetsText targets₁ simple = targetsText targets₂ simple := by
    rw [targetsText, targetsText, plainTexts_congr htargets]
  rw [stubAssign, stubAssign, htext, hannot, hline]
  rfl

theorem stubString_over (span₁ span₂ : Span) :
    Decides s.source (s.withText text).source [span₁] [span₂] (∀ parentTags last,
      s.stubString parentTags last span₁ = (s.withText text).stubString parentTags last
      span₂) := by
  refine (spanText_decided span₁ span₂).imp fun htext parentTags last => ?_
  unfold stubString
  rw [htext]
  rfl

/-- The node of the string at the start of a function's body depends on where it stands only. -/
theorem functionDoc_cases (body : List Stmt) :
    (leadingString body = [] ∧ leadingSpan body = [] ∧
      ∀ s : Session, s.functionDoc body = pure []) ∨
    ∃ span, leadingString body ≠ [] ∧ leadingSpan body = [span] ∧
      ∀ s : Session, s.functionDoc body = s.stubString [.function] none span := by
  cases body with
  | nil => exact .inl ⟨rfl, rfl, fun _ => rfl⟩
  | cons first rest =>
    cases first with
    | expr span value =>
      by_cases hstring : value.isString = true
      · exact .inr ⟨span, by simp [leadingString,
          hstring], if_pos hstring, fun _ => if_pos hstring⟩
      · exact .inl ⟨if_neg hstring, if_neg hstring, fun _ => if_neg hstring⟩
    | _ => exact .inl ⟨rfl, rfl, fun _ => rfl⟩

theorem functionDoc_over {body₁ body₂} (h : leadingString body₁ = leadingString body₂) :
    Decides s.source (s.withText text).source (leadingSpan body₁) (leadingSpan body₂)
      (s.functionDoc body₁ = (s.withText text).functionDoc body₂) := by
  obtain ⟨hnil₁, hspan₁, hdoc₁⟩ | ⟨span₁, hne₁, hspan₁, hdoc₁⟩ :=
    functionDoc_cases body₁ <;>
    obtain ⟨hnil₂, hspan₂, hdoc₂⟩ | ⟨span₂, hne₂, hspan₂, hdoc₂⟩ :=
      functionDoc_cases body₂
  · rw [hspan₁, hspan₂, hdoc₁, hdoc₂]
    exact .nil rfl
  · exact absurd (h.symm.trans hnil₁) hne₂
  · exact absurd (h.trans hnil₂) hne₁
  · rw [hspan₁, hspan₂, hdoc₁, hdoc₂]
    exact (stubString_over span₁ span₂).imp fun h => h _ _

theorem returnsText_over {head₁ head₂} (h : head₁.erased = head₂.erased) :
    Decides s.source (s.withText text).source (literalSpansOption head₁.returns)
      (literalSpansOption head₂.returns) (∀ parentTags,
        s.returnsText parentTags head₁ = (s.withText text).returnsText parentTags head₂) := by
  obtain ⟨hname, _, _, hreturns, _⟩ := FunctionHead.erased_eq_iff.1 h
  unfold returnsText
  cases h₁ : head₁.returns with
  | none =>
    rw [h₁] at hreturns
    rw [Option.map_eq_none_iff.1 hreturns.symm, hname]
    exact .nil fun _ => rfl
  | some e₁ =>
    rw [h₁] at hreturns
    obtain ⟨e₂, h₂, he⟩ := Option.map_eq_some_iff.1 hreturns.symm
    rw [h₂]
    refine (typeText_over e₁ e₂ he.symm).imp fun htext _ => ?_
    simp only [htext]
    rfl

theorem stubFunction_over {head₁ head₂ body₁ body₂} (h : head₁.erased = head₂.erased)
    (hbody : leadingString body₁ = leadingString body₂) :
    Decides s.source (s.withText text).source
      (head₁.params.literalSpans ++ (literalSpansOption head₁.returns ++ leadingSpan body₁))
      (head₂.params.literalSpans ++ (literalSpansOption head₂.returns ++ leadingSpan body₂))
      (∀ parentTags, s.stubFunction parentTags head₁ body₁
        = (s.withText text).stubFunction parentTags head₂ body₂) := by
  obtain ⟨hname, hparams, hdecorators, _, hcomment, hasync⟩ := FunctionHead.erased_eq_iff.1 h
  refine ((signatureText_over hparams).append
    ((returnsText_over h).append (functionDoc_over hbody))).imp ?_
  rintro ⟨hsignature, hreturns, hdoc⟩ parentTags
  rw [stubFunction, stubFunction, functionLine, functionLine, hname, hcomment, hasync,
    decoratorLines_congr hdecorators, hsignature, hreturns, hdoc]
  rfl

/-! ## Statements -/

theorem isSkipped_erased (stmt : Stmt) : stmt.erased.isSkipped = stmt.isSkipped := by
  cases stmt with
  | expr _ value => rw [Stmt.erased, Stmt.isSkipped, Stmt.isSkipped, isString_unplaced]
  | _ => simp only [Stmt.erased, Stmt.isSkipped]

/-- A statement that is left out leaves nothing. -/
theorem Grows.eq_nil_of_skipped {stmt nodes} (h : s.Grows (.stmt parentTags last stmt) nodes)
    (hskip : stmt.isSkipped = true) : nodes = [] := by
  cases h with
  | skipped => rfl
  | string hstring => simp [Stmt.isSkipped, hstring] at hskip
  | _ => cases hskip

theorem relates_of_skipped {stmt₁ stmt₂} (h : stmt₁.erased = stmt₂.erased)
    (hskip : stmt₁.isSkipped = true) (parentTags : List Tag) (last : Option (List Tag)) :
    Relates Eq (s.stub parentTags last stmt₁)
    ((s.withText text).stub parentTags last stmt₂) := by
  have hskip₂ := hskip
  rw [← isSkipped_erased, h, isSkipped_erased] at hskip₂
  intro nodes₁ nodes₂ h₁ h₂
  rw [(stub_grows _ _ _ h₁).eq_nil_of_skipped hskip,
    (stub_grows _ _ _ h₂).eq_nil_of_skipped hskip₂]

theorem ifNodes_same {condition outer inner₁ inner₂ others₁ others₂} [Steady inner₁]
    [Steady inner₂] [Steady others₁] [Steady others₂] (hinner : Relates Eq inner₁ inner₂)
    (hothers : Relates Eq others₁ others₂) :
    Relates Eq (s.ifNodes parentTags condition outer inner₁ others₁)
      ((s.withText text).ifNodes parentTags condition outer inner₂ others₂) := by
  unfold ifNodes
  refine .seq .rfl fun keep => ?_
  split
  · exact .seq .rfl fun _ => .seq hinner fun _ => .seq .rfl fun _ => .seq hothers fun _ => .rfl
  · exact .rfl

mutual

theorem stub_same : (stmt₁ : Stmt) → ∀ stmt₂ : Stmt, stmt₁.erased = stmt₂.erased →
    Decides s.source (s.withText text).source stmt₁.keptSpans stmt₂.keptSpans
      (∀ parentTags last,
        Relates Eq (s.stub parentTags last stmt₁)
        ((s.withText text).stub parentTags last stmt₂))
  | .imports .., stmt₂, h | .importFrom .., stmt₂, h => by
    cases stmt₂ <;> simp only [Stmt.erased, reduceCtorEq] at h
    cases h
    refine .nil fun _ _ => ?_
    rw [stub, stub]
    exact .of_eq (stubImport_over fun _ => rfl)
  | .assign .., stmt₂, h => by
    cases stmt₂ <;> simp only [Stmt.erased, reduceCtorEq] at h
    obtain ⟨-, htargets, hvalue, rfl⟩ := Stmt.assign.inj h
    refine .nil fun _ _ => ?_
    rw [stub, stub]
    exact .seq .rfl fun _ => .of_eq (stubAssign_over htargets rfl (congrArg some hvalue))
  | .annAssign .., stmt₂, h => by
    cases stmt₂ <;> simp only [Stmt.erased, reduceCtorEq] at h
    obtain ⟨-, htarget, hannot, hvalue, rfl⟩ := Stmt.annAssign.inj h
    refine (typeText_over _ _ hannot).imp fun htext _ _ => ?_
    rw [stub, stub]
    refine .of_eq (stubAssign_over (congrArg ([·]) htarget) ?_ hvalue)
    rw [optionType, optionType, htext]
    rfl
  | .functionDef .., stmt₂, h => by
    cases stmt₂ <;> simp only [Stmt.erased, reduceCtorEq] at h
    obtain ⟨-, hhead, hbody⟩ := Stmt.functionDef.inj h
    refine (stubFunction_over hhead hbody).imp fun hsame _ _ => ?_
    rw [stub, stub]
    exact .of_eq (hsame _)
  | .classDef _ _ body, stmt₂, h => by
    cases stmt₂ <;> simp only [Stmt.erased, reduceCtorEq] at h
    obtain ⟨-, hhead, hbody⟩ := Stmt.classDef.inj h
    obtain ⟨hname, _, _, hdecorators⟩ := ClassHead.unplaced_eq_iff.1 hhead
    refine (stubAll_same body _ hbody).imp fun hbody _ _ => ?_
    rw [stub, stub, hname, decoratorLines_congr hdecorators, classLine_congr hhead]
    refine .seq .rfl fun keep => ?_
    split
    · exact .seq .rfl fun _ => .seq .rfl fun _ => .seq (hbody _ _) fun _ => .rfl
    · exact .rfl
  | .expr _ value, stmt₂, h => by
    have hskip := @relates_of_skipped s text _ _ h
    cases stmt₂ <;> simp only [Stmt.erased, reduceCtorEq] at h
    next span₂ value₂ =>
    obtain ⟨-, hvalue⟩ := Stmt.expr.inj h
    have hstring₂ : value₂.isString = value.isString := by
      rw [← isString_unplaced, ← hvalue, isString_unplaced]
    rw [Stmt.keptSpans, Stmt.keptSpans, hstring₂]
    split
    · next hstring =>
      refine (stubString_over _ _).imp fun hsame parentTags last => ?_
      rw [stub, stub, if_pos hstring, if_pos (hstring₂.trans hstring), hsame]
      exact .rfl
    · next hstring => exact .nil (hskip (by simpa [Stmt.isSkipped] using hstring))
  | .ifElse _ _ body orelse, stmt₂, h => by
    cases stmt₂ <;> simp only [Stmt.erased, reduceCtorEq] at h
    obtain ⟨-, hcondition, hbody, helse⟩ := Stmt.ifElse.inj h
    refine ((stubAll_same body _ hbody).append (stubElse_same orelse _ helse)).imp ?_
    rintro ⟨hbody, helse⟩ parentTags last
    rw [stub, stub, exprLine_congr hcondition]
    refine .seq .rfl fun condition => .seq .rfl fun flatten => ?_
    dsimp only
    split
    · exact .seq (hbody _ _) fun _ => ifNodes_same .rfl (helse _)
    · exact ifNodes_same (hbody _ _) (helse _)
  | .tryBlock _ _ body .., stmt₂, h => by
    cases stmt₂ <;> simp only [Stmt.erased, reduceCtorEq] at h
    obtain ⟨-, -, hbody, -⟩ := Stmt.tryBlock.inj h
    refine (stubAll_same body _ hbody).imp fun hbody _ _ => ?_
    rw [stub, stub]
    exact hbody _ _
  | .withBlock _ isAsync _ body _, stmt₂, h => by
    have hskip := @relates_of_skipped s text _ _ h
    cases stmt₂ <;> simp only [Stmt.erased, reduceCtorEq] at h
    obtain ⟨-, rfl, -, hbody, -⟩ := Stmt.withBlock.inj h
    refine (stubAll_same body _ hbody).imp fun hbody _ _ => ?_
    cases isAsync with
    | true => exact hskip rfl _ _
    | false =>
      rw [stub, stub]
      exact hbody _ _
  | .ret .., stmt₂, h | .delete .., stmt₂, h | .augAssign .., stmt₂,
    h | .forLoop .., stmt₂, h
  | .whileLoop .., stmt₂, h | .matchCases .., stmt₂, h | .raise .., stmt₂,
    h | .assert .., stmt₂, h
  | .global .., stmt₂, h | .nonlocal .., stmt₂, h | .pass _, stmt₂, h | .break _, stmt₂, h
  | .continue _, stmt₂, h => by
    have hskip := @relates_of_skipped s text _ _ h rfl
    cases stmt₂ <;> simp only [Stmt.erased, reduceCtorEq] at h
    exact .nil hskip
termination_by stmt₁ => sizeOf stmt₁

theorem stubAll_same : (stmts₁ : List Stmt) → ∀ stmts₂ : List Stmt,
    erasedAll stmts₁ = erasedAll stmts₂ →
    Decides s.source (s.withText text).source (keptSpansAll stmts₁) (keptSpansAll stmts₂)
      (∀ parentTags last, Relates Eq (s.stubAll parentTags last stmts₁)
        ((s.withText text).stubAll parentTags last stmts₂))
  | [], _, h => by
    obtain rfl := nil_of_erasedAll h
    exact .nil fun _ _ => .rfl
  | stmt :: rest, _, h => by
    obtain ⟨stmt₂, rest₂, rfl, hstmt, hrest⟩ := cons_of_erasedAll h
    refine ((stub_same stmt stmt₂ hstmt).append (stubAll_same rest rest₂ hrest)).imp ?_
    rintro ⟨hstmt, hrest⟩ parentTags last
    rw [stubAll, stubAll]
    exact .seq (hstmt _ _) fun _ => .seq (hrest _ _) fun _ => .rfl
termination_by stmts₁ => sizeOf stmts₁

theorem stubElse_same : (stmts₁ : List Stmt) → ∀ stmts₂ : List Stmt,
    erasedAll stmts₁ = erasedAll stmts₂ →
    Decides s.source (s.withText text).source (keptSpansAll stmts₁) (keptSpansAll stmts₂)
      (∀ parentTags, Relates Eq (s.stubElse parentTags stmts₁)
        ((s.withText text).stubElse parentTags stmts₂))
  | [], _, h => by
    obtain rfl := nil_of_erasedAll h
    exact .nil fun _ => .rfl
  | stmt :: rest, _, h => by
    obtain ⟨stmt₂, rest₂, rfl, hstmt, hrest⟩ := cons_of_erasedAll h
    by_cases helif : ∃ span test body orelse, stmt = .ifElse span test body orelse ∧ rest = []
    · obtain ⟨_, _, body, orelse, rfl, rfl⟩ := helif
      obtain rfl := nil_of_erasedAll hrest
      cases stmt₂ <;> simp only [Stmt.erased, reduceCtorEq] at hstmt
      obtain ⟨-, hcondition, hbody, helse⟩ := Stmt.ifElse.inj hstmt
      refine (((stubAll_same body _ hbody).append (stubElse_same orelse _ helse)).append
        (.nil trivial)).imp ?_
      rintro ⟨⟨hbody, helse⟩, -⟩ parentTags
      rw [stubElse, stubElse, exprLine_congr hcondition]
      exact .seq .rfl fun _ => .seq .rfl fun _ => .seq (hbody _ _) fun _ => .seq .rfl fun _ =>
        .seq (helse _) fun _ => .rfl
    · refine ((stub_same stmt stmt₂ hstmt).append (stubAll_same rest rest₂ hrest)).imp ?_
      rintro ⟨hsame, hsameRest⟩ parentTags
      rw [stubElse.eq_3, stubElse.eq_3]
      · exact .seq (hsame _ _) fun _ => .seq (hsameRest _ _) fun _ => .rfl
      · rintro span test body orelse rfl rfl
        cases stmt <;> simp only [Stmt.erased, reduceCtorEq] at hstmt
        exact helif ⟨_, _, _, _, rfl, nil_of_erasedAll hrest.symm⟩
      · exact fun span test body orelse hif hnil => helif ⟨span, test, body, orelse, hif, hnil⟩
termination_by stmts₁ => sizeOf stmts₁

end

end Session

namespace Stub

open Source

variable {config : ValidConfig} {debug : Bool} {path : Path}

theorem pass_ok {source used used' discover result}
    (h : (pass config debug source used discover).outcome = .ok (result, used')) :
    ∃ m root, source.readModule = .ok m ∧
      (if discover then (source.usedNames used m.body).outcome else .ok used) = .ok used' ∧
      (Session.stubModule ⟨source, config, debug, used'⟩ m).outcome = .ok root ∧
      result = root.text := by
  unfold pass at h
  obtain ⟨m, hread, h⟩ := outcome_bind_ok.1 h
  have houtput : ∀ used, (do
      let text ← (⟨source, config, debug, used⟩ : Session).output m
      return (text, used)).outcome = .ok (result, used') → used = used' ∧ ∃ root,
        (Session.stubModule ⟨source, config, debug, used⟩ m).outcome = .ok root ∧
        result = root.text := by
    intro used h
    obtain ⟨_, houtput, h⟩ := outcome_bind_ok.1 h
    obtain ⟨rfl, rfl⟩ := Prod.mk.inj (Except.ok.inj h)
    obtain ⟨root, hroot, hlines⟩ := outcome_bind_ok.1 houtput
    exact ⟨rfl, root, hroot, (Except.ok.inj hlines).symm⟩
  cases discover with
  | true =>
    obtain ⟨found, hfound, h⟩ := outcome_bind_ok.1 h
    obtain ⟨rfl, root, hroot, hlines⟩ := houtput found h
    exact ⟨m, root, ofResult_ok.1 hread, hfound, hroot, hlines⟩
  | false =>
    obtain ⟨rfl, root, hroot, hlines⟩ := houtput used h
    exact ⟨m, root, ofResult_ok.1 hread, rfl, hroot, hlines⟩

/-- **Implementations do not reach stubs.** Two sources whose modules are equal once bodies of
functions, default values and the like are erased, and which agree in the strings and `Literal[…]`
that are copied, have the same stub. So a name that only an implementation uses keeps no import. -/
theorem generate_eq_of_erased {text₁ text₂ : List Char} {m₁ m₂ : Module}
    {stub₁ stub₂ : String} (hread₁ : (sourceOf config path text₁).readModule = .ok m₁)
    (hread₂ : (sourceOf config path text₂).readModule = .ok m₂)
    (herased : erasedAll m₁.body = erasedAll m₂.body)
    (htexts : SameTexts (sourceOf config path text₁) (sourceOf config path text₂)
      (keptSpansAll m₁.body) (keptSpansAll m₂.body))
    (h₁ : (generate config debug path text₁).outcome = .ok stub₁)
    (h₂ : (generate config debug path text₂).outcome = .ok stub₂) : stub₁ = stub₂ := by
  unfold generate at h₁ h₂
  obtain ⟨⟨first₁, _⟩, hpass₁, h₁⟩ := outcome_bind_ok.1 h₁
  obtain ⟨⟨first₂, _⟩, hpass₂, h₂⟩ := outcome_bind_ok.1 h₂
  obtain ⟨_, root₁, hm₁, hused₁, hroot₁, rfl⟩ := pass_ok hpass₁
  obtain ⟨_, root₂, hm₂, hused₂, hroot₂, rfl⟩ := pass_ok hpass₂
  obtain rfl := Except.ok.inj (hm₁.symm.trans hread₁)
  obtain rfl := Except.ok.inj (hm₂.symm.trans hread₂)
  cases hused₁
  cases hused₂
  obtain ⟨children₁, hstubs₁, rfl⟩ := Session.stubModule_ok hroot₁
  obtain ⟨children₂, hstubs₂, rfl⟩ := Session.stubModule_ok hroot₂
  -- from here on both runs work on one text
  obtain rfl := (@Session.stubAll_same _ text₂ _ _ herased).holds htexts _ _ hstubs₁ hstubs₂
  exact Except.ok.inj (h₁.symm.trans h₂)

/-! ## Samples -/

/-- A function that uses an import in its body and as a default value. -/
def usingSample : String := "from m import g\ndef f(x=g):\n  'd'\n  return g(x)\n"

/-- The same function without any use of the import. -/
def plainSample : String := "from m import g\n\ndef f(x=1): 'd'\n"

/-- What is left of a module that imports something and defines a documented function with one
parameter, which has a default value. -/
structure ImportAndFunction where
  module : Option String
  names : List Alias
  level : Nat
  function : String
  param : String
  points : List Nat
  marked : Bool
  deriving DecidableEq

def importAndFunction? : List Stmt → Option ImportAndFunction
  | [.importFrom _ module names level,
      .functionDef _
        { name
          params :=
            { posOnly := [], args := [{ name := param, annot := none, typeComment := none }]
              vararg := none, kwOnly := [], kwDefaults := [], kwarg := none, defaults := [_] }
          decorators := [], returns := none, typeComment := none, isAsync := false }
        (.expr _ (.constant _ (.str points marked)) :: _)] =>
    some { module, names, level, function := name, param, points, marked }
  | _ => none

theorem erasedAll_of_importAndFunction? {body x} (h : importAndFunction? body = some x) :
    erasedAll body
      = [.importFrom .nowhere x.module x.names x.level,
          .functionDef .nowhere
            { name := x.function
              params :=
                { posOnly := [], args := [{ name := x.param, annot := none, typeComment := none }]
                  vararg := none, kwOnly := [], kwDefaults := [], kwarg := none
                  defaults := [.hole] }
              decorators := [], returns := none, typeComment := none, isAsync := false }
            [.expr .nowhere (.constant .nowhere (.str x.points x.marked))]] := by
  unfold importAndFunction? at h
  split at h
  · cases h
    rfl
  · cases h

def samplePath : Path := Path.read "sample.py"

def sampleStub : String := "def f(x = ...):\n    'd'\n"

def sampleUnder (config : ValidConfig) (text : String) : Source :=
  sourceOf config samplePath text.toList

theorem generate_eq_of_erased_on_samples :
    ∃ config m₁ m₂ stub, keepPublic.validate = .ok config ∧
      (sampleUnder config usingSample).readModule = .ok m₁ ∧
      (sampleUnder config plainSample).readModule = .ok m₂ ∧
      erasedAll m₁.body = erasedAll m₂.body ∧
      SameTexts (sampleUnder config usingSample) (sampleUnder config plainSample)
        (keptSpansAll m₁.body) (keptSpansAll m₂.body) ∧
      (generate config false samplePath usingSample.toList).outcome = .ok stub ∧
      (generate config false samplePath plainSample.toList).outcome = .ok sampleStub ∧
      stub = sampleStub := by
  have hsamples : keepPublic.validate.toOption.any (fun config =>
      (sampleUnder config usingSample).readModule.toOption.any fun m₁ =>
      (sampleUnder config plainSample).readModule.toOption.any fun m₂ =>
        (importAndFunction? m₁.body).isSome
        && decide (importAndFunction? m₁.body = importAndFunction? m₂.body)
        && decide ((keptSpansAll m₁.body).map (sampleUnder config usingSample).piece
          = (keptSpansAll m₂.body).map (sampleUnder config plainSample).piece)
        && decide ((generate config false samplePath usingSample.toList).outcome = .ok sampleStub)
        && decide ((generate config false samplePath plainSample.toList).outcome = .ok sampleStub))
      = true := by decide +kernel
  simp only [any_toOption_iff, Bool.and_eq_true, decide_eq_true_eq] at hsamples
  obtain ⟨config, hconfig, m₁, hm₁, m₂, hm₂, ⟨⟨⟨hsome, hform⟩, htexts⟩, h₁⟩,
    h₂⟩ := hsamples
  obtain ⟨x, hx⟩ := Option.isSome_iff_exists.1 hsome
  have herased : erasedAll m₁.body = erasedAll m₂.body := by
    rw [erasedAll_of_importAndFunction? hx, erasedAll_of_importAndFunction? (hform ▸ hx)]
  exact ⟨config, m₁, m₂, _, hconfig, hm₁, hm₂, herased, htexts, h₁, h₂,
    generate_eq_of_erased hm₁ hm₂ herased htexts h₁ h₂⟩

end Stub

end TypeStub
