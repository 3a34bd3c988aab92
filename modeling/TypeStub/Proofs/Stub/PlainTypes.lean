import TypeStub.Proofs.Stub.Outcome
import TypeStub.Proofs.Syntax.Unplaced
/-!
# Types without quotes

Two printers write types. The canonical one hands the level of a place down the tree and puts
brackets around what binds looser than its place demands; the text of a type has its brackets and
commas in fixed places. Where nothing is quoted they agree.

A plain type is written the same way at every level at which it can stand (`PlainType.print_eq`):
this is what the fixed brackets rely on. The main statement is `typeText_eq_exprLine`.
-/

namespace TypeStub

open TypeStub.Syntax StubM

namespace Syntax

/-! ## Plain types -/

def Expr.isDotted : Expr → Bool
  | .name .. => true
  | .attribute _ value _ => value.isDotted
  | _ => false

def Expr.isTuple : Expr → Bool
  | .tuple .. => true
  | _ => false

def Expr.isUnion : Expr → Bool
  | .binOp _ _ .bitOr _ => true
  | _ => false

/-- Whether an expression has the form of what is applied to types: a dotted name other than
`Literal`, or something that is applied already. -/
def Expr.isTypeHead : Expr → Bool
  | .name _ id _ => id != "Literal"
  | .attribute _ value _ => value.isDotted
  | .subscript .. => true
  | _ => false

def Constant.isPlain : Constant → Bool
  | .none | .bool _ | .ellipsis | .int _ => true
  | _ => false

/-- Types without quotes. A tuple in the brackets of a subscript is the list of its arguments.
Unions group to the left. -/
inductive PlainType : Expr → Prop
  | dotted {e} : e.isDotted = true → PlainType e
  | constant {span c} : c.isPlain = true → PlainType (.constant span c)
  | list {span elts} : (∀ e ∈ elts, PlainType e) → PlainType (.list span elts)
  | tuple {span elts} :
      2 ≤ elts.length → (∀ e ∈ elts, PlainType e) → PlainType (.tuple span elts)
  | applied {span head arg} :
      PlainType head → head.isTypeHead = true → PlainType arg → arg.isTuple = false →
      PlainType (.subscript span head arg)
  | appliedToSeveral {span inner head args} :
      PlainType head → head.isTypeHead = true → 2 ≤ args.length →
      (∀ e ∈ args, PlainType e) → PlainType (.subscript span head (.tuple inner args))
  | union {span left right} :
      PlainType left → PlainType right → right.isUnion = false →
      PlainType (.binOp span left .bitOr right)

/-! ## The canonical printer -/

/-- What types are applied to is written the same way at all levels. -/
theorem print_typeHead (sparse : Bool) (level level' : Nat) : (e : Expr) → e.isTypeHead = true →
    e.print sparse level = e.print sparse level'
  | .name .., _ | .attribute .., _ | .subscript .., _ => by rw [Expr.print, Expr.print]

theorem print_dotted (sparse : Bool) (level level' : Nat) : (e : Expr) → e.isDotted = true →
    e.print sparse level = e.print sparse level'
  | .name .., _ | .attribute .., _ => by rw [Expr.print, Expr.print]

/-- **A plain type needs no further brackets** at a place where an element of a list may stand, nor
as an operand of a union. -/
theorem PlainType.print_eq {e} (h : PlainType e) {level} (hlevel : Level.test ≤ level)
    (hunion : e.isUnion = true → level ≤ Level.bitOr) : e.print false level = e.render := by
  have htest : Level.test > Level.tuple := by decide
  have htuple : level > Level.tuple := Nat.lt_of_lt_of_le htest hlevel
  cases h with
  | dotted h => exact print_dotted _ _ _ _ h
  | union _ _ _ =>
    have hthis : ¬ level > Level.bitOr := Nat.not_lt.2 (hunion rfl)
    have htest : ¬ Level.test > Level.bitOr := by decide
    simp [Expr.render, Expr.print, bracketIf, BinaryOp.level, hthis, htest]
  | tuple _ _ => simp [Expr.render, Expr.print, bracketIf, htuple, htest]
  | _ => simp [Expr.render, Expr.print]

theorem length_of_printAll {sparse es texts} (h : printAll sparse es = .ok texts) :
    texts.length = es.length := by
  induction es generalizing texts with
  | nil =>
    cases h
    rfl
  | cons e rest ih =>
    rw [printAll] at h
    cases he : e.print sparse Level.test with
    | error cause =>
      rw [he] at h
      cases h
    | ok text =>
      cases hrest : printAll sparse rest with
      | error cause =>
        rw [he, hrest] at h
        cases h
      | ok more =>
        rw [he, hrest] at h
        cases h
        simp [ih hrest]

/-- A tuple of several elements is the list of their texts, in brackets where its place demands
them. -/
theorem print_tuple {span elts} (h : 2 ≤ elts.length) (level : Nat) :
    Expr.print false level (.tuple span elts) = do
      let texts ← printAll false elts
      return bracketIf level Level.tuple (Text.join ", " texts) := by
  match elts, h with
  | first :: second :: rest, _ =>
    rw [Expr.print]
    cases htexts : printAll false (first :: second :: rest) with
    | error cause => rfl
    | ok texts =>
      have hlength := length_of_printAll htexts
      match texts, hlength with
      | _ :: _ :: _, _ => rfl

/-- A text with a mark that is no letter is not `Literal`. -/
theorem ne_literal_of_mem {text c} (hc : c ∉ "Literal".toList) (h : c ∈ text.toList) :
    text ≠ "Literal" := by
  rintro rfl
  exact hc h

/-- Only the name itself is written `Literal`. -/
theorem render_ne_literal : {e : Expr} → e.isTypeHead = true → {text : String} →
    e.render = .ok text → text ≠ "Literal"
  | .name _ id _, h, text, htext => by
    rw [Expr.render, Expr.print] at htext
    cases htext
    simpa [Expr.isTypeHead] using h
  | .attribute _ value attr, _, text, htext => by
    rw [Expr.render, Expr.print] at htext
    cases hv : value.print false Level.atom with
    | error cause =>
      rw [hv] at htext
      cases htext
    | ok v =>
      rw [hv] at htext
      cases htext
      refine ne_literal_of_mem (c := '.') (by decide) ?_
      split <;> simp
  | .subscript _ value index, _, text, htext => by
    rw [Expr.render, Expr.print] at htext
    cases hv : value.print false Level.atom with
    | error cause =>
      rw [hv] at htext
      cases htext
    | ok v =>
      cases hi : index.print false index.indexLevel with
      | error cause =>
        rw [hv, hi] at htext
        cases htext
      | ok i =>
        rw [hv, hi] at htext
        cases htext
        exact ne_literal_of_mem (c := '[') (by decide) (by simp)

end Syntax

/-! ## The text of a type -/

namespace StubM

variable {α β : Type}

theorem ofPrint_bind (x : Except PrintError α) (f : α → Except PrintError β) :
    ofPrint (x >>= f) = ofPrint x >>= fun a => ofPrint (f a) := by
  cases x with
  | error cause => rfl
  | ok a => rfl

theorem ofPrint_pure (a : α) : ofPrint (pure a) = pure a := rfl

end StubM

namespace Source

variable {s : Source} {es : List Expr}

theorem plainTexts_eq (es : List Expr) : plainTexts es = ofPrint (printAll false es) := by
  induction es with
  | nil => rfl
  | cons e rest ih =>
    rw [plainTexts, printAll, ofPrint_bind, ih]
    simp only [ofPrint_bind, ofPrint_pure]
    rfl

theorem typeTexts_eq (h : ∀ e ∈ es, s.typeText e = exprLine e) :
    s.typeTexts es = ofPrint (printAll false es) := by
  induction es with
  | nil =>
    rw [typeTexts]
    rfl
  | cons e rest ih =>
    obtain ⟨he, hrest⟩ := List.forall_mem_cons.1 h
    rw [typeTexts, he, ih hrest, printAll]
    simp only [ofPrint_bind, ofPrint_pure]
    rfl

theorem argTexts_eq {onlyFirst} (h : ∀ e ∈ es, s.typeText e = exprLine e) :
    s.argTexts onlyFirst es = ofPrint (printAll false es) := by
  cases es with
  | nil =>
    rw [argTexts]
    rfl
  | cons e rest =>
    obtain ⟨he, hrest⟩ := List.forall_mem_cons.1 h
    rw [argTexts, he, plainTexts_eq, typeTexts_eq hrest, printAll]
    simp only [ite_self, ofPrint_bind, ofPrint_pure]
    rfl

/-- What is neither built from types nor quoted is written as it is. -/
theorem typeText_dotted (s : Source) : (e : Expr) → e.isDotted = true →
    s.typeText e = exprLine e
  | .name .., _ | .attribute .., _ => by rw [typeText] <;> simp

theorem typeText_constant (s : Source) (span : Span) {c} (h : c.isPlain = true) :
    s.typeText (.constant span c) = exprLine (.constant span c) := by
  cases c with
  | str points marked => simp [Constant.isPlain] at h
  | _ => rw [typeText] <;> simp

/-- A head that is not `Literal` is followed by its arguments in brackets. -/
theorem headed_eq {head : Expr} (hform : head.isTypeHead = true) {x y : String → StubM String} :
    (exprLine head >>= fun text => if text == "Literal" then x text else y text)
      = exprLine head >>= y := by
  rw [exprLine]
  cases htext : head.render with
  | error cause => rfl
  | ok text =>
    have hne : (text == "Literal") = false := by simpa using render_ne_literal hform htext
    change (if text == "Literal" then x text else y text) = y text
    rw [hne]
    rfl

theorem indexLevel_of_not_tuple {arg : Expr} (h : arg.isTuple = false) :
    arg.indexLevel = Level.test := by
  cases arg with
  | tuple span elts => simp [Expr.isTuple] at h
  | _ => rfl

/-- **Where nothing is quoted, the text of a type is its canonical text.** -/
theorem typeText_eq_exprLine (s : Source) {e : Expr} (h : PlainType e) :
    s.typeText e = exprLine e := by
  induction h with
  | dotted h => exact s.typeText_dotted _ h
  | constant h => exact s.typeText_constant _ h
  | @list span elts _ ih =>
    show _ = ofPrint (Expr.print false Level.test (.list span elts))
    rw [typeText, typeTexts_eq ih, Expr.print, ofPrint_bind]
    rfl
  | @tuple span elts htwo _ ih =>
    show _ = ofPrint (Expr.print false Level.test (.tuple span elts))
    rw [typeText, typeTexts_eq ih, print_tuple htwo, ofPrint_bind]
    rfl
  | @applied span head arg hhead hform harg htuple _ ih =>
    show _ = ofPrint (Expr.print false Level.test (.subscript span head arg))
    rw [typeText, headed_eq hform, ih, Expr.print, indexLevel_of_not_tuple htuple,
      print_typeHead _ _ Level.test _ hform]
    · simp only [ofPrint_bind]
      rfl
    · rintro inner args rfl
      simp [Expr.isTuple] at htuple
  | @appliedToSeveral span inner head args hhead hform htwo _ _ ih =>
    show _ = ofPrint (Expr.print false Level.test (.subscript span head (.tuple inner args)))
    have hindex : Expr.print false (Expr.tuple inner args).indexLevel (.tuple inner args)
        = printAll false args >>= fun texts => pure (Text.join ", " texts) := print_tuple htwo _
    rw [typeText, headed_eq hform, Expr.print, hindex, print_typeHead _ _ Level.test _ hform]
    simp only [argTexts_eq ih, ofPrint_bind, ofPrint_pure, bind_assoc, pure_bind, map_eq_pure_bind]
    rfl
  | @union span left right hleft hright hunion ihleft ihright =>
    have hl : left.print false Level.bitOr = left.render :=
      hleft.print_eq (by decide) fun _ => Nat.le_refl _
    have hr : right.print false (Level.next Level.bitOr) = right.render :=
      hright.print_eq (by decide) fun h => by simp [h] at hunion
    have hbar : ∀ l r : String, l ++ " | " ++ r = l ++ " " ++ "|" ++ " " ++ r := by
      intro l r
      rw [show " | " = " " ++ "|" ++ " " by decide]
      simp only [String.append_assoc]
    show _ = ofPrint (Expr.print false Level.test (.binOp span left .bitOr right))
    rw [typeText, ihleft, ihright, Expr.print]
    simp only [BinaryOp.operandLevels, BinaryOp.level, hl, hr, ofPrint_bind, hbar]
    rfl

/-! `Annotated` among the operands of a union, and a tuple that needs its brackets. -/

def sampleType : Expr :=
  .binOp .nowhere
    (.subscript .nowhere (.name .nowhere "Annotated" .load) (.tuple .nowhere
      [.subscript .nowhere (.name .nowhere "Tuple" .load)
        (.tuple .nowhere [.name .nowhere "int" .load, .constant .nowhere .ellipsis]),
        .constant .nowhere (.int 3)]))
    .bitOr
    (.tuple .nowhere
      [.attribute .nowhere (.name .nowhere "a" .load) "B",
      .list .nowhere [.constant .nowhere .none]])

theorem plainType_sample : PlainType sampleType := by
  refine .union (.appliedToSeveral (.dotted rfl) rfl (by decide) ?_) (.tuple (by decide) ?_) rfl
  · have hargs : PlainType (.subscript .nowhere (.name .nowhere "Tuple" .load)
        (.tuple .nowhere [.name .nowhere "int" .load, .constant .nowhere .ellipsis])) := by
      refine .appliedToSeveral (.dotted rfl) rfl (by decide) ?_
      simpa using ⟨PlainType.dotted rfl, .constant rfl⟩
    simpa using ⟨hargs, .constant rfl⟩
  · simpa using ⟨PlainType.dotted rfl, .list (by simpa using .constant rfl)⟩

theorem typeText_eq_exprLine_on_sample : PlainType sampleType ∧
      Source.typeText { text := [], path := "", version := none, typeComments := false } sampleType
        = exprLine sampleType ∧
      sampleType.render.toOption = some "Annotated[Tuple[int, ...], 3] | (a.B, [None])" :=
  ⟨plainType_sample, typeText_eq_exprLine _ plainType_sample, by decide +kernel⟩

end Source

end TypeStub
