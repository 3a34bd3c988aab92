import TypeStub.Proofs.Grammar.Rendering
import TypeStub.Proofs.Stub.PlainTypes
/-!
# What the text of a type is read as

The text of a type is put together without regard to how tight its parts bind. It is read as the
type with its strings written out (`Source.unquote`), up to the grouping of unions, where the parts
fit their places (`typeText_reads_unquoted`): the operands of a union bind at least as tight as
unions do, heads are primaries, and no tuple has just one element. A tuple with one element loses
its comma.

The strings among the arguments of `Literal` are strings still when the text is read
(`literalStrings_kept`). A `Literal` behind a dot is not recognized, and its strings are written
out.
-/

namespace TypeStub

open TypeStub.Syntax TypeStub.Text StubM

namespace Syntax

/-! ## Unions grouped to the left -/

def Expr.unionWith (left : Expr) : Expr → Expr
  | .binOp span first .bitOr last => .binOp span (left.unionWith first) .bitOr last
  | right => .binOp .nowhere left .bitOr right

mutual

def Expr.regrouped : Expr → Expr
  | .binOp _ left .bitOr right => left.regrouped.unionWith right.regrouped
  | .tuple span elts => .tuple span (regroupedAll elts)
  | .list span elts => .list span (regroupedAll elts)
  | .subscript span value index => .subscript span value index.regrouped
  | e => e

def regroupedAll : List Expr → List Expr
  | [] => []
  | e :: rest => e.regrouped :: regroupedAll rest

end

/-- A type without positions and with its unions grouped to the left. -/
def Expr.shape (e : Expr) : Expr :=
  e.unplaced.regrouped

/-- The same type up to positions and the grouping of unions. -/
def Expr.SameType (e e' : Expr) : Prop :=
  e'.shape = e.shape

theorem Expr.unionWith_assoc (a b c : Expr) :
    (a.unionWith b).unionWith c = a.unionWith (b.unionWith c) := by
  fun_induction Expr.unionWith (a.unionWith b) c with
  | case1 span first last ih => rw [ih, unionWith, unionWith]
  | case2 c hc =>
    have hplain : b.unionWith c = .binOp .nowhere b .bitOr c := by
      rw [unionWith]
      exact hc
    rw [hplain, unionWith]

section Shapes

variable {span : Span} {es es' : List Expr} {e e' : Expr}

theorem shape_union (left right : Expr) :
    (Expr.binOp span left .bitOr right).shape = left.shape.unionWith right.shape := by
  rw [Expr.shape, Expr.unplaced, Expr.regrouped, Expr.shape, Expr.shape]

theorem regroupedAll_unplacedAll (es : List Expr) :
    regroupedAll (unplacedAll es) = es.map Expr.shape := by
  induction es with
  | nil => rfl
  | cons e rest ih => rw [unplacedAll, regroupedAll, ih, List.map_cons, Expr.shape]

theorem shape_tuple (es : List Expr) :
    (Expr.tuple span es).shape = .tuple .nowhere (es.map Expr.shape) := by
  rw [Expr.shape, Expr.unplaced, Expr.regrouped, regroupedAll_unplacedAll]

theorem shape_list (es : List Expr) :
    (Expr.list span es).shape = .list .nowhere (es.map Expr.shape) := by
  rw [Expr.shape, Expr.unplaced, Expr.regrouped, regroupedAll_unplacedAll]

theorem shape_subscript (value index : Expr) :
    (Expr.subscript span value index).shape = .subscript .nowhere value.unplaced index.shape := by
  rw [Expr.shape, Expr.unplaced, Expr.regrouped, Expr.shape]

theorem Expr.SameAs.sameType (h : e.SameAs e') : e.SameType e' :=
  congrArg Expr.regrouped h

theorem IsPhrase.sameType {d f ts} (h : IsPhrase d f e.SameAs ts) : IsPhrase d f e.SameType ts := by
  obtain ⟨e', hp, he⟩ := h
  exact ⟨e', hp, he.sameType⟩

theorem Expr.isStarred_unionWith (left right : Expr) :
    (left.unionWith right).isStarred = false := by
  unfold unionWith
  split <;> rfl

/-- Regrouping makes no starred expression and leaves none out. -/
theorem Expr.isStarred_shape (e : Expr) : e.shape.isStarred = e.isStarred := by
  unfold shape
  cases e with
  | binOp span left op right =>
    cases op with
    | bitOr =>
      rw [unplaced, regrouped, isStarred_unionWith]
      rfl
    | _ => simp only [unplaced, regrouped, isStarred]
  | _ => simp only [unplaced, regrouped, isStarred]

theorem Expr.SameType.isStarred (h : e.SameType e') : e'.isStarred = e.isStarred := by
  rw [← isStarred_shape, h, isStarred_shape]

end Shapes

/-! ## Unions in a row -/

theorem Phrase.union {d us t left} (hleft : Phrase d (.expr Level.bitOr) us [.expr left])
    (ht : t.kind = .op "|") {vs right} (hright : Phrase d (.expr Level.bitOr) vs [.expr right]) :
    ∃ e, Phrase d (.expr Level.bitOr) (us ++ t :: vs) [.expr e] ∧
      e.shape = left.shape.unionWith right.shape := by
  induction hlength : vs.length using Nat.strongRecOn generalizing vs right with
  | _ n ih =>
    generalize hk : Level.bitOr = k at hright
    cases hright with
    | lift _ _ hright =>
      subst hk
      exact ⟨_, .binary (by simp : BinaryOp.bitOr ≠ .pow) (by simp) hleft ht hright,
        shape_union ..⟩
    | @binary t' op ts ws first last hop hd hfirst ht' hlast =>
      obtain rfl : op = .bitOr := by cases op <;> first | rfl | cases hk
      obtain ⟨e, he, hshape⟩ := ih ts.length (by simp [← hlength]) hfirst rfl
      have hall := Phrase.binary hop hd he ht' hlast
      rw [List.append_assoc, List.cons_append] at hall
      refine ⟨_, hall, ?_⟩
      rw [shape_union, shape_union, hshape, Expr.unionWith_assoc]
    | atom | member | call | callGenerator | subscript => cases hk
    | await | power | sign | compare | inversion | ifExp | lambda => cases hk
    | @boolOp op => cases op <;> cases hk

theorem Legible.union {d point point' text text'} {Q Q' : Expr → Prop}
    (h : Legible d Level.bitOr point text Q) (h' : Legible d Level.bitOr point' text' Q') :
    Legible d Level.bitOr point' (text ++ ' ' :: ("|".toList ++ ' ' :: text'))
      (fun e => ∃ left right, Q left ∧ Q' right ∧
      e.shape = left.shape.unionWith right.shape) where
  begins := h.begins.append
  goes := by
    refine (goes_operator h (goes_opBlank "|" (by decide)) h').imp ?_
    rintro _ ⟨us, _, rfl, ⟨left, hleft, hQ⟩, _, vs, rfl, ⟨t, rfl, ht⟩, right,
      hright, hQ'⟩
    obtain ⟨e, he, hshape⟩ := hleft.union ht hright
    exact ⟨e, he, left, right, hQ, hQ', hshape⟩

/-! ## Forms of types -/

def Expr.isNamed (id : String) : Expr → Bool
  | .name _ other _ => other == id
  | _ => false

def Expr.isTypeForm : Expr → Bool
  | .subscript .. | .tuple .. | .list .. | .binOp _ _ .bitOr _ | .constant _ (.str ..) => true
  | _ => false

/-- Whether an expression can only stand in the brackets of a subscript, or in a list. -/
def Expr.isItem : Expr → Bool
  | .starred .. | .slice .. => true
  | _ => false

theorem Expr.isTypeForm_of_isItem {e : Expr} (h : e.isItem = true) : e.isTypeForm = false := by
  cases e <;> first | rfl | cases h

/-- Whether arguments in the brackets of a subscript are read as a tuple: a single one is none
unless it is starred. -/
def areSeveral : List Expr → Bool
  | [] => false
  | [arg] => arg.isStarred
  | _ => true

theorem Expr.Writable.render_eq_iff {d} {e : Expr} (h : e.Writable d) {text id}
    (htext : e.render = .ok text) (hid : isName id = true) : (text == id) = e.isNamed id := by
  by_cases heq : text = id
  · subst heq
    obtain ⟨span, rfl⟩ := h.eq_name htext hid
    simp [isNamed]
  · have hother : e.isNamed id = false := by
      cases e with
      | name span other use =>
        rw [render, print] at htext
        cases htext
        simpa [isNamed] using heq
      | _ => rfl
    rw [hother]
    simpa using heq

/-! ## Strings that are values -/

mutual

/-- The strings of a type that stand among the arguments of a `Literal`, or in one already. -/
def Expr.literalStrings (inLiteral : Bool) : Expr → List (List Nat)
  | .constant _ (.str points _) => if inLiteral then [points] else []
  | .subscript _ value index => index.literalStrings (inLiteral || value.isNamed "Literal")
  | .tuple _ elts => literalStringsAll inLiteral elts
  | .list _ elts => literalStringsAll inLiteral elts
  | .binOp _ left .bitOr right => left.literalStrings inLiteral ++ right.literalStrings inLiteral
  | _ => []

def literalStringsAll (inLiteral : Bool) : List Expr → List (List Nat)
  | [] => []
  | e :: rest => e.literalStrings inLiteral ++ literalStringsAll inLiteral rest

end

theorem literalStrings_unionWith (inLiteral : Bool) (left right : Expr) :
    (left.unionWith right).literalStrings inLiteral
      = left.literalStrings inLiteral ++ right.literalStrings inLiteral := by
  fun_induction Expr.unionWith left right with
  | case1 span first last ih =>
    rw [Expr.literalStrings, ih, Expr.literalStrings, List.append_assoc]
  | case2 right => rw [Expr.literalStrings]

theorem isNamed_unplaced (e : Expr) (id : String) : e.unplaced.isNamed id = e.isNamed id := by
  cases e <;> rfl

mutual

theorem literalStrings_shape (inLiteral : Bool) (e : Expr) :
    e.shape.literalStrings inLiteral = e.literalStrings inLiteral := by
  cases e with
  | subscript span value index =>
    rw [shape_subscript, Expr.literalStrings, Expr.literalStrings, isNamed_unplaced,
      literalStrings_shape]
  | tuple span elts =>
    rw [shape_tuple, Expr.literalStrings, Expr.literalStrings, literalStringsAll_shape]
  | list span elts =>
    rw [shape_list, Expr.literalStrings, Expr.literalStrings, literalStringsAll_shape]
  | binOp span left op right =>
    cases op with
    | bitOr =>
      rw [shape_union, literalStrings_unionWith, literalStrings_shape, literalStrings_shape,
        Expr.literalStrings]
    | _ => simp only [Expr.shape, Expr.unplaced, Expr.regrouped, Expr.literalStrings]
  | constant span value => cases value <;> rfl
  | _ => simp only [Expr.shape, Expr.unplaced, Expr.regrouped, Expr.literalStrings]

theorem literalStringsAll_shape (inLiteral : Bool) (es : List Expr) :
    literalStringsAll inLiteral (es.map Expr.shape) = literalStringsAll inLiteral es := by
  cases es with
  | nil => rfl
  | cons e rest =>
    rw [List.map_cons, literalStringsAll, literalStringsAll, literalStrings_shape,
      literalStringsAll_shape]

end

end Syntax

namespace Source

/-! ## Types without quotes -/

mutual

/-- A type with its strings written out, as far as they hold expressions: all of it but the
arguments of `Literal` and those behind the first one of `Annotated`. -/
def unquote (s : Source) : Expr → Expr
  | .subscript span value (.tuple inner elts) =>
    if value.isNamed "Literal" then .subscript span value (.tuple inner elts)
    else .subscript span value (.tuple inner (s.unquoteArgs (value.isNamed "Annotated") elts))
  | .subscript span value index =>
    if value.isNamed "Literal" then .subscript span value index
    else .subscript span value (s.unquote index)
  | .tuple span elts => .tuple span (s.unquoteAll elts)
  | .list span elts => .list span (s.unquoteAll elts)
  | .binOp span left .bitOr right => .binOp span (s.unquote left) .bitOr (s.unquote right)
  | .constant span (.str points marked) =>
    match s.readPoints points with
    | .ok inner => inner
    | .error _ => .constant span (.str points marked)
  | e => e

def unquoteArgs (s : Source) (onlyFirst : Bool) : List Expr → List Expr
  | [] => []
  | first :: rest => s.unquote first :: (if onlyFirst then rest else s.unquoteAll rest)

def unquoteAll (s : Source) : List Expr → List Expr
  | [] => []
  | e :: rest => s.unquote e :: s.unquoteAll rest

end

theorem unquoteAll_eq_map (s : Source) (es : List Expr) : s.unquoteAll es = es.map s.unquote := by
  induction es with
  | nil => rw [unquoteAll, List.map_nil]
  | cons e rest ih => rw [unquoteAll, ih, List.map_cons]

theorem unquote_of_plain (s : Source) {e} (h : e.isTypeForm = false) : s.unquote e = e := by
  unfold unquote
  split <;> simp_all [Expr.isTypeForm]

mutual

theorem literalStrings_unquote (s : Source) (e : Expr) :
    (e.literalStrings false).Sublist ((s.unquote e).literalStrings false) := by
  unfold unquote
  split
  next span value inner elts =>
    split
    · exact List.Sublist.refl _
    next hother =>
      simp only [Expr.literalStrings, hother]
      exact literalStrings_unquoteArgs s _ elts
  next span value index _ =>
    split
    · exact List.Sublist.refl _
    next hother =>
      simp only [Expr.literalStrings, hother]
      exact literalStrings_unquote s index
  next elts => exact literalStrings_unquoteAll s elts
  next elts => exact literalStrings_unquoteAll s elts
  next left right =>
    exact (literalStrings_unquote s left).append (literalStrings_unquote s right)
  next => exact List.nil_sublist _
  next => exact List.Sublist.refl _

theorem literalStrings_unquoteArgs (s : Source) (onlyFirst : Bool) (es : List Expr) :
    (literalStringsAll false es).Sublist
    (literalStringsAll false (s.unquoteArgs onlyFirst es)) := by
  cases es with
  | nil => exact List.nil_sublist _
  | cons first rest =>
    refine (literalStrings_unquote s first).append ?_
    split
    · exact List.Sublist.refl _
    · exact literalStrings_unquoteAll s rest

theorem literalStrings_unquoteAll (s : Source) (es : List Expr) :
    (literalStringsAll false es).Sublist (literalStringsAll false (s.unquoteAll es)) := by
  cases es with
  | nil => exact List.nil_sublist _
  | cons e rest => exact (literalStrings_unquote s e).append (literalStrings_unquoteAll s rest)

end

theorem typeText_of_plain (s : Source) {e} (h : e.isTypeForm = false) :
    s.typeText e = exprLine e := by
  unfold typeText
  split <;> simp_all [Expr.isTypeForm]

/-! ## Types whose parts fit their places -/

/-- The types whose text is read back. The parts that are no types are writable; and each part of a
type fits the place where its text is put. -/
inductive WritableType (s : Source) (d : Dialect) : Expr → Prop
  | plain {e} : e.isTypeForm = false → e.Writable d → WritableType s d e
  | quoted {span points marked inner} :
      s.readPoints points = .ok inner → inner.Writable d →
      WritableType s d (.constant span (.str points marked))
  | unread {span points marked} :
      s.readPoints points = .error .malformed →
      (Expr.constant span (.str points marked)).Writable d →
      WritableType s d (.constant span (.str points marked))
  | list {span elts} :
      (∀ e ∈ elts, e.isStarred = true → e.unstarred.Writable d) →
      (∀ e ∈ elts, e.isStarred = false → WritableType s d e) →
      WritableType s d (.list span elts)
  | tuple {span elts} :
      elts.length ≠ 1 → (∀ e ∈ elts, e.isStarred = true → e.unstarred.Writable d) →
      (∀ e ∈ elts, e.isStarred = false → WritableType s d e) →
      WritableType s d (.tuple span elts)
  | union {span left right} :
      WritableType s d left → WritableType s d right → Level.bitOr ≤ (s.unquote left).rank →
      Level.bitOr ≤ (s.unquote right).rank → WritableType s d (.binOp span left .bitOr right)
  /-- The text of a `Literal` is taken from the source, where it has to stand for it. -/
  | literal {span value index} :
      value.Writable d → value.isNamed "Literal" = true →
      (∀ text, (s.spanText span).outcome = .ok text →
        Legible d Level.atom true text.toList (Expr.subscript span value index).SameAs) →
      WritableType s d (.subscript span value index)
  | applied {span value index} :
      value.Writable d → value.rank = Level.atom → value.isNamed "Literal" = false →
      index.isTuple = false → index.isStarred = false →
      (index.isItem = true → ∀ e ∈ index.itemParts, e.Writable d) →
      (index.isItem = false → WritableType s d index) →
      WritableType s d (.subscript span value index)
  | appliedToSeveral {span inner value args} :
      value.Writable d → value.rank = Level.atom → value.isNamed "Literal" = false →
      value.isNamed "Annotated" = false → areSeveral args = true →
      (∀ arg ∈ args, arg.isItem = true → ∀ e ∈ arg.itemParts, e.Writable d) →
      (∀ arg ∈ args, arg.isItem = false → WritableType s d arg) →
      WritableType s d (.subscript span value (.tuple inner args))
  | annotated {span inner value first rest} :
      value.Writable d → value.isNamed "Annotated" = true →
      areSeveral (first :: rest) = true →
      (first.isItem = true → ∀ e ∈ first.itemParts, e.Writable d) →
      (first.isItem = false → WritableType s d first) →
      (∀ arg ∈ rest, ∀ e ∈ arg.itemParts, e.Writable d) →
      WritableType s d (.subscript span value (.tuple inner (first :: rest)))

/-! ## Texts of types -/

/-- Wherever the type may stand, its text is read as the type with its strings written out. -/
def TypeReads (s : Source) (d : Dialect) (e : Expr) : Prop :=
  ∀ (text : String) (level : Nat), (s.typeText e).outcome = .ok text → Level.test ≤ level →
    level ≤ (s.unquote e).rank → Legible d level false text.toList (s.unquote e).SameType

section Texts

variable {s : Source} {d : Dialect} {span : Span}

variable {es : List Expr} {texts : List String} {e value : Expr} {text : String}

theorem typeTexts_ok (h : (s.typeTexts es).outcome = .ok texts) :
    List.Forall₂ (fun e text => (s.typeText e).outcome = .ok text) es texts := by
  induction es generalizing texts with
  | nil =>
    rw [typeTexts] at h
    cases h
    exact .nil
  | cons e rest ih =>
    rw [typeTexts] at h
    obtain ⟨text, htext, h⟩ := outcome_bind_ok.1 h
    obtain ⟨more, hmore, h⟩ := outcome_bind_ok.1 h
    cases h
    exact .cons htext (ih hmore)

/-- A type that is written as an expression. -/
theorem typeReads_of_render {e'} (htype : s.typeText e = exprLine e') (hunquote : s.unquote e = e')
    (h : e'.Writable d) : TypeReads s d e := by
  intro text level htext htest hlevel
  rw [htype, exprLine_ok] at htext
  rw [hunquote] at hlevel ⊢
  exact (h.legible htext htest hlevel).imp fun _ => Expr.SameAs.sameType

theorem typeReads_union {left right} (hleft : TypeReads s d left) (hright : TypeReads s d right)
    (hl : Level.bitOr ≤ (s.unquote left).rank) (hr : Level.bitOr ≤ (s.unquote right).rank) :
    TypeReads s d (.binOp span left .bitOr right) := by
  intro text level htext htest hlevel
  rw [typeText] at htext
  obtain ⟨l, hltext, htext⟩ := outcome_bind_ok.1 htext
  obtain ⟨r, hrtext, htext⟩ := outcome_bind_ok.1 htext
  cases htext
  rw [unquote] at hlevel ⊢
  have htoList : (l ++ " | " ++ r).toList = l.toList ++ ' ' :: ("|".toList ++ ' ' :: r.toList) := by
    simp
  have hunion := (hleft l Level.bitOr hltext (by decide) hl).union
    (hright r Level.bitOr hrtext (by decide) hr)
  rw [htoList]
  refine (hunion.loosen htest hlevel (by decide)).imp ?_
  rintro e ⟨a, b, ha, hb, he⟩
  rw [Expr.SameType, he, ha, hb, shape_union]

theorem TypeReads.legible (h : TypeReads s d e) (htext : (s.typeText e).outcome = .ok text) :
    Legible d Level.test false text.toList (s.unquote e).SameType :=
  h text Level.test htext (Nat.le_refl _) (s.unquote e).rank_bounds.1

theorem goes_typeElement (hstar : e.isStarred = true → e.unstarred.Writable d)
    (htype : e.isStarred = false → TypeReads s d e) (htext : (s.typeText e).outcome = .ok text) :
    GoesIn false text.toList (IsPhrase d .element (s.unquote e).SameType) := by
  cases h : e.isStarred with
  | false => exact ((htype h).legible htext).goes_element
  | true =>
    have hform : e.isTypeForm = false := by
      cases e <;> first | rfl | cases h
    rw [typeText_of_plain s hform, exprLine_ok] at htext
    rw [unquote_of_plain s hform]
    exact (goes_printElement (hstar h).readsBack htext).imp fun _ => IsPhrase.sameType

theorem areElements_of_goes {f}
    (h : ∀ e ∈ es, ∀ text : String, (s.typeText e).outcome = .ok text →
      GoesIn false text.toList (IsPhrase d f (s.unquote e).SameType))
    (htexts : (s.typeTexts es).outcome = .ok texts) :
    AreElements d f Expr.SameType (es.map s.unquote) texts := by
  rw [AreElements, List.forall₂_map_left_iff]
  exact ((List.forall₂_and_left _ _).2 ⟨h, typeTexts_ok htexts⟩).imp fun _ text he =>
    he.1 text he.2

theorem typeReads_list {elts} (hstar : ∀ e ∈ elts, e.isStarred = true →
    e.unstarred.Writable d) (htype : ∀ e ∈ elts, e.isStarred = false → TypeReads s d e) :
    TypeReads s d (.list span elts) := by
  intro text level htext htest hlevel
  rw [typeText] at htext
  obtain ⟨texts, htexts, htext⟩ := outcome_bind_ok.1 htext
  cases htext
  rw [unquote, unquoteAll_eq_map] at hlevel ⊢
  have hall := areElements_of_goes (fun e he _ => goes_typeElement (hstar e he) (htype e he)) htexts
  refine ((legible_list hall).place htest hlevel).imp ?_
  rintro _ ⟨_, es', rfl, hes⟩
  rw [Expr.SameType, shape_list, shape_list, map_eq_of_forall₂ hes]

theorem typeReads_tuple {elts} (hone : elts.length ≠ 1)
    (hstar : ∀ e ∈ elts, e.isStarred = true → e.unstarred.Writable d)
    (htype : ∀ e ∈ elts, e.isStarred = false → TypeReads s d e) :
    TypeReads s d (.tuple span elts) := by
  intro text level htext htest hlevel
  rw [typeText] at htext
  obtain ⟨texts, htexts, htext⟩ := outcome_bind_ok.1 htext
  cases htext
  rw [unquote, unquoteAll_eq_map] at hlevel ⊢
  have hall := areElements_of_goes (fun e he _ => goes_typeElement (hstar e he) (htype e he)) htexts
  by_cases hne : elts = []
  · subst hne
    cases hall
    refine (legible_noTuple.place htest hlevel).imp ?_
    rintro _ ⟨_, rfl⟩
    rfl
  · have htwo : 2 ≤ (elts.map s.unquote).length := by
      have hpos := List.length_pos_of_ne_nil hne
      rw [List.length_map]
      omega
    have hitems := (goes_join hall.trees (by simpa using hne)).imp
      fun _ hts => hts.commas true fun _ => htwo
    refine ((legible_tuple hitems).place htest hlevel).imp ?_
    rintro _ ⟨_, es', rfl, hes⟩
    rw [Expr.SameType, shape_tuple, shape_tuple, map_eq_of_forall₂ hes]

/-! Subscripts. -/

theorem goes_plainArg (h : ∀ part ∈ e.itemParts, part.Writable d)
    (htext : e.render = .ok text) : GoesIn false text.toList (IsPhrase d .slice e.SameType) :=
  (goes_item (fun part hpart => (h part hpart).readsBack) htext).imp fun _ => IsPhrase.sameType

theorem goes_typeArg (hitem : e.isItem = true → ∀ part ∈ e.itemParts, part.Writable d)
    (htype : e.isItem = false → TypeReads s d e) (htext : (s.typeText e).outcome = .ok text) :
    GoesIn false text.toList (IsPhrase d .slice (s.unquote e).SameType) := by
  cases h : e.isItem with
  | false => exact ((htype h).legible htext).goes_slice
  | true =>
    have hform := Expr.isTypeForm_of_isItem h
    rw [typeText_of_plain s hform, exprLine_ok] at htext
    rw [unquote_of_plain s hform]
    exact goes_plainArg (hitem h) htext

theorem areSeveral_unquoteArgs {onlyFirst args} (h : areSeveral args = true) :
    2 ≤ (s.unquoteArgs onlyFirst args).length ∨ ∃ e, s.unquoteArgs onlyFirst args = [e] ∧
      ∀ e', e.SameType e' → e'.isStarred = true := by
  match args, h with
  | [arg], h =>
    have hform : arg.isTypeForm = false := by
      cases arg <;> first | rfl | cases h
    refine .inr ⟨arg, ?_, fun e' he => he.isStarred.trans h⟩
    rw [unquoteArgs, unquote_of_plain s hform, unquoteAll, ite_self]
  | first :: second :: rest, _ =>
    refine .inl ?_
    rw [unquoteArgs, unquoteAll_eq_map]
    split <;> simp

theorem legible_applied {index head args} (hvalue : value.Writable d)
    (hrank : value.rank = Level.atom) (hhead : value.render = .ok head)
    (hargs : GoesIn false args.toList (IsPhrase d .index index.SameType)) :
    Legible d Level.atom true (head ++ "[" ++ args ++ "]").toList
      (Expr.subscript span value index).SameType := by
  have hprimary := hvalue.legible hhead (by decide) (Nat.le_of_eq hrank.symm)
  refine (hprimary.subscript hargs).imp ?_
  rintro _ ⟨_, v, i, rfl, hv, hi⟩
  rw [Expr.SameType, shape_subscript, shape_subscript, hv, hi]

theorem areArgs_of_writable (h : ∀ e ∈ es, ∀ part ∈ e.itemParts, part.Writable d)
    (htexts : (plainTexts es).outcome = .ok texts) :
    AreElements d .slice Expr.SameType es texts := by
  rw [plainTexts_eq, ofResult_ok] at htexts
  have hall := (List.forall₂_and_left _ _).2 ⟨h, printAll_ok htexts⟩
  exact hall.imp fun _ _ he => goes_plainArg he.1 he.2

theorem argTexts_all (es : List Expr) : s.argTexts false es = s.typeTexts es := by
  cases es with
  | nil => rw [argTexts, typeTexts]
  | cons e rest =>
    rw [argTexts, typeTexts]
    rfl

theorem unquoteArgs_all (es : List Expr) : s.unquoteArgs false es = es.map s.unquote := by
  cases es with
  | nil => rw [unquoteArgs, List.map_nil]
  | cons e rest => rw [unquoteArgs, if_neg Bool.false_ne_true, unquoteAll_eq_map, List.map_cons]

theorem headed_ok (hvalue : value.Writable d) {x : StubM String} {y : String → StubM String}
    [Steady x] [∀ head, Steady (y head)]
    (h : (exprLine value >>= fun head => if head == "Literal" then x else y head).outcome = .ok
      text) :
    if value.isNamed "Literal" then x.outcome = .ok text
    else ∃ head, value.render = .ok head ∧ (head == "Annotated") = value.isNamed "Annotated" ∧
      (y head).outcome = .ok text := by
  obtain ⟨head, hhead, h⟩ := outcome_bind_ok.1 h
  rw [exprLine_ok] at hhead
  rw [hvalue.render_eq_iff hhead (by decide)] at h
  split at h
  · next hliteral => rwa [if_pos hliteral]
  · next hliteral =>
    rw [if_neg hliteral]
    exact ⟨head, hhead, hvalue.render_eq_iff hhead (by decide), h⟩

theorem typeReads_applied {index} (hvalue : value.Writable d) (hrank : value.rank = Level.atom)
    (hliteral : value.isNamed "Literal" = false) (htuple : index.isTuple = false)
    (hstar : (s.unquote index).isStarred = false)
    (hitem : index.isItem = true → ∀ e ∈ index.itemParts, e.Writable d)
    (htype : index.isItem = false → TypeReads s d index) :
    TypeReads s d (.subscript span value index) := by
  have hindex : ∀ inner elts, index = .tuple inner elts → False := by
    rintro inner elts rfl
    cases htuple
  have hunquote : s.unquote (.subscript span value index)
      = .subscript span value (s.unquote index) := by
    rw [unquote, hliteral, if_neg Bool.false_ne_true]
    exact hindex
  intro text level htext htest hlevel
  rw [typeText] at htext
  · have hheaded := headed_ok hvalue htext
    rw [hliteral, if_neg Bool.false_ne_true] at hheaded
    obtain ⟨head, hhead, -, hargs⟩ := hheaded
    obtain ⟨arg, harg, htext⟩ := outcome_bind_ok.1 hargs
    cases htext
    rw [hunquote] at hlevel ⊢
    refine (legible_applied hvalue hrank hhead ?_).place htest hlevel
    exact goes_index (goes_typeArg hitem htype harg) fun e he => he.isStarred.trans hstar
  · exact hindex

theorem typeReads_appliedToSeveral {inner args} (hvalue : value.Writable d)
    (hrank : value.rank = Level.atom) (hliteral : value.isNamed "Literal" = false)
    (hseveral : areSeveral args = true)
    (hargs : ∀ texts, (s.argTexts (value.isNamed "Annotated") args).outcome = .ok texts →
      AreElements d .slice Expr.SameType (s.unquoteArgs (value.isNamed "Annotated") args) texts) :
    TypeReads s d (.subscript span value (.tuple inner args)) := by
  intro text level htext htest hlevel
  rw [typeText] at htext
  have hheaded := headed_ok hvalue htext
  rw [hliteral, if_neg Bool.false_ne_true] at hheaded
  obtain ⟨head, hhead, hannotated, htext⟩ := hheaded
  rw [hannotated, map_eq_pure_bind] at htext
  obtain ⟨texts, htexts, htext⟩ := outcome_bind_ok.1 htext
  cases htext
  rw [unquote, hliteral, if_neg Bool.false_ne_true] at hlevel ⊢
  refine (legible_applied hvalue hrank hhead ?_).place htest hlevel
  refine (goes_indicesOf (hargs texts htexts) (areSeveral_unquoteArgs hseveral)).imp ?_
  rintro _ ⟨_, hp, _, es', rfl, hes⟩
  refine ⟨_, hp, ?_⟩
  rw [Expr.SameType, shape_tuple, shape_tuple, map_eq_of_forall₂ hes]

theorem typeReads_literal {index} (hvalue : value.Writable d)
    (hliteral : value.isNamed "Literal" = true)
    (h : ∀ text, (s.spanText span).outcome = .ok text → Legible d Level.atom true text.toList
      (Expr.subscript span value index).SameAs) : TypeReads s d (.subscript span value index) := by
  have hunquote : s.unquote (.subscript span value index) = .subscript span value index := by
    unfold unquote
    split <;> simp_all
  intro text level htext htest hlevel
  rw [hunquote] at hlevel ⊢
  have hspan : (s.spanText span).outcome = .ok text := by
    have hheaded : ∀ y : String → StubM String, (∀ head, Steady (y head)) →
        (exprLine value >>= fun head =>
        if head == "Literal" then s.spanText span else y head).outcome
          = .ok text → (s.spanText span).outcome = .ok text := by
      intro y _ h
      simpa [hliteral] using headed_ok hvalue h
    cases hindex : index.isTuple with
    | true =>
      obtain ⟨inner, elts, rfl⟩ : ∃ inner elts, index = .tuple inner elts := by
        cases index <;> simp_all [Expr.isTuple]
      rw [typeText] at htext
      exact hheaded _ inferInstance htext
    | false =>
      rw [typeText] at htext
      · exact hheaded _ inferInstance htext
      · rintro inner elts rfl
        cases hindex
  exact ((h text hspan).place htest hlevel).imp fun _ => Expr.SameAs.sameType

end Texts

theorem WritableType.isStarred_unquote {s d e} (h : WritableType s d e) :
    (s.unquote e).isStarred = false := by
  cases h with
  | plain hform h =>
    rw [unquote_of_plain s hform]
    exact h.isStarred
  | quoted hread h =>
    rw [unquote, hread]
    exact h.isStarred
  | unread hread _ =>
    rw [unquote, hread]
    rfl
  | list | tuple | union =>
    rw [unquote]
    rfl
  | literal | applied | appliedToSeveral | annotated =>
    unfold unquote
    split <;> simp_all [Expr.isStarred]

/-- **Wherever a type may stand, its text is read as the type with its strings written out.** -/
theorem WritableType.typeReads {s d e} (h : WritableType s d e) : TypeReads s d e := by
  induction h with
  | plain hform h =>
    exact typeReads_of_render (typeText_of_plain s hform) (unquote_of_plain s hform) h
  | quoted hread h | unread hread h =>
    exact typeReads_of_render (by rw [typeText, quotedTypeText, hread]) (by rw [unquote, hread]) h
  | list hstar _ ih => exact typeReads_list hstar ih
  | tuple hone hstar _ ih => exact typeReads_tuple hone hstar ih
  | union _ _ hl hr ih ih' => exact typeReads_union ih ih' hl hr
  | literal hvalue hliteral h => exact typeReads_literal hvalue hliteral h
  | @applied span value index hvalue hrank hliteral htuple hstar hitem htype ih =>
    refine typeReads_applied hvalue hrank hliteral htuple ?_ hitem ih
    cases h : index.isItem with
    | false => exact (htype h).isStarred_unquote
    | true => rw [unquote_of_plain s (Expr.isTypeForm_of_isItem h), hstar]
  | appliedToSeveral hvalue hrank hliteral hannotated hseveral hitem _ ih =>
    refine typeReads_appliedToSeveral hvalue hrank hliteral hseveral fun texts htexts => ?_
    rw [hannotated, argTexts_all] at htexts
    rw [hannotated, unquoteArgs_all]
    exact areElements_of_goes (fun e he _ => goes_typeArg (hitem e he) (ih e he)) htexts
  | @annotated span inner value first rest hvalue hannotated hseveral hitem _ hrest ih =>
    refine typeReads_appliedToSeveral hvalue ?_ ?_ hseveral fun texts htexts => ?_
    · cases value <;> first | rfl | cases hannotated
    · cases value with
      | name span id use =>
        obtain rfl : id = "Annotated" := by simpa [Expr.isNamed] using hannotated
        rfl
      | _ => cases hannotated
    · rw [hannotated, argTexts] at htexts
      obtain ⟨text, htext, htexts⟩ := outcome_bind_ok.1 htexts
      obtain ⟨more, hmore, htexts⟩ := outcome_bind_ok.1 htexts
      cases htexts
      rw [hannotated, unquoteArgs, if_pos rfl]
      exact .cons (goes_typeArg hitem ih htext) (areArgs_of_writable hrest hmore)

/-! ## Reading the text of a type -/

section Reading

variable {s : Source} {d : Dialect}

theorem readExpr_eq_ok (hd : dialectOf s.version s.typeComments = .ok d) {text e} :
    s.readExpr text = .ok e ↔ parseExpression d text = some e := by
  simp only [readExpr, hd, bind, Except.bind]
  cases parseExpression d text with
  | none => simp [throw, throwThe, MonadExceptOf.throw]
  | some e' => simp [pure, Except.pure]

theorem reads_of_legible (hd : dialectOf s.version s.typeComments = .ok d) {text}
    {Q : Expr → Prop}
    (h : Legible d Level.test false text Q) : (∀ e, s.readExpr text = .ok e → Q e) ∧
      (openings text ≤ maxBrackets → ∃ e, s.readExpr text = .ok e) := by
  simp only [readExpr_eq_ok hd]
  exact parseExpression_of_legible h

/-- **The text of a type is read as the type with its strings written out**, up to the grouping of
unions, where the parts of the type fit their places; and it is read at all unless it has too many
brackets. -/
theorem typeText_reads_unquoted (hd : dialectOf s.version s.typeComments = .ok d) {e : Expr}
    (h : WritableType s d e) {text : String} (htext : (s.typeText e).outcome = .ok text) :
    (∀ e', s.readExpr text.toList = .ok e' → (s.unquote e).SameType e') ∧
      (openings text.toList ≤ maxBrackets → ∃ e', s.readExpr text.toList = .ok e') :=
  reads_of_legible hd (h.typeReads.legible htext)

/-- **The strings of literal types stay strings**: those among the arguments of a `Literal` are read
again from the text of the type, in their order, where the parts of the type fit their places. -/
theorem literalStrings_kept (hd : dialectOf s.version s.typeComments = .ok d) {e : Expr}
    (h : WritableType s d e) {text : String} (htext : (s.typeText e).outcome = .ok text) {e' : Expr}
    (hread : s.readExpr text.toList = .ok e') :
    (e.literalStrings false).Sublist (e'.literalStrings false) := by
  have hsame : (s.unquote e).SameType e' :=
    (reads_of_legible hd (h.typeReads.legible htext)).1 e' hread
  rw [← literalStrings_shape false e', hsame, literalStrings_shape]
  exact literalStrings_unquote s e

theorem legible_single {e} (h : WritableType s d e) {span text}
    (htext : (s.typeText (.tuple span [e])).outcome = .ok text) :
    Legible d Level.test false text.toList (s.unquote e).SameType := by
  rw [typeText, typeTexts, typeTexts] at htext
  obtain ⟨texts, htexts, htext⟩ := outcome_bind_ok.1 htext
  obtain ⟨inner, hinner, htexts⟩ := outcome_bind_ok.1 htexts
  cases htexts
  cases htext
  exact ((h.typeReads.legible hinner).group (by decide) (by decide)).place (by decide) (by decide)

end Reading

/-! A union that is regrouped, with quotes in its operands: those of the literal type stay. -/

def quotedSample : Source :=
  { text := "Literal['a']".toList, path := "", version := none, typeComments := false }

def sampleName (id : String) : Expr :=
  .name .nowhere id .load

def sampleString (text : String) : Expr :=
  .constant .nowhere (.str (points text) false)

def sampleLiteral : Expr :=
  .subscript ⟨1, 0, 1, 12⟩ (sampleName "Literal") (sampleString "a")

/-- `Annotated["B", 3] | (Literal['a'] | ("D", [*e]))` -/
def sampleQuoted : Expr :=
  .binOp .nowhere
    (.subscript .nowhere (sampleName "Annotated")
      (.tuple .nowhere [sampleString "B", .constant .nowhere (.int 3)]))
    .bitOr
    (.binOp .nowhere sampleLiteral .bitOr
      (.tuple .nowhere [sampleString "D", .list .nowhere [.starred .nowhere (sampleName "e")]]))

def sampleDialect : Dialect := { minor := newestMinor, typeComments := false }

theorem writableType_sampleLiteral : WritableType quotedSample sampleDialect sampleLiteral := by
  have hwritable : sampleLiteral.Writable sampleDialect :=
    .subscript (.name (by decide)) rfl
      (by simpa [sampleString, Expr.indexItems, Expr.itemParts] using .constant (by decide))
  refine .literal (.name (by decide)) rfl fun text htext => ?_
  have hspan :
      (quotedSample.spanText ⟨1, 0, 1, 12⟩).outcome.toOption = some "Literal['a']" := by
    decide +kernel
  rw [htext] at hspan
  cases hspan
  refine hwritable.readsBack Level.atom true "Literal['a']" (by decide) (by decide) ?_ ?_
  · exact fun _ => ⟨rfl, rfl⟩
  · exact toOption_eq_some_iff.1 (by decide +kernel)

theorem writableType_sampleQuoted : WritableType quotedSample sampleDialect sampleQuoted := by
  have hstring :
      ∀ id, quotedSample.readPoints (points id) = .ok (.name ⟨1, 0, 1, 1⟩ id .load) →
      isName id = true → WritableType quotedSample sampleDialect (sampleString id) :=
    fun _ hread hid => .quoted hread (.name hid)
  refine .union (.annotated (.name (by decide)) rfl rfl (by simp [sampleString, Expr.isItem])
    (fun _ => hstring "B" rfl (by decide)) ?_)
    (.union writableType_sampleLiteral (.tuple (by simp) ?_ ?_)
    (by decide +kernel) (by decide +kernel)) (by decide +kernel) (by decide +kernel)
  · simpa [Expr.itemParts] using .constant rfl
  · simp [sampleString, Expr.isStarred]
  · have hlist : WritableType quotedSample sampleDialect
        (.list .nowhere [.starred .nowhere (sampleName "e")]) := by
      refine .list ?_ ?_
      · simpa [Expr.unstarred, Expr.isStarred] using .name (by decide)
      · simp [Expr.isStarred]
    simpa [sampleString, Expr.isStarred] using ⟨hstring "D" rfl (by decide), hlist⟩

theorem typeText_sampleQuoted : (quotedSample.typeText sampleQuoted).outcome
    = .ok "Annotated[B, 3] | Literal['a'] | (D, [*e])" :=
  toOption_eq_some_iff.1 (by decide +kernel)

theorem typeText_reads_unquoted_on_sample : WritableType quotedSample sampleDialect sampleQuoted ∧
      (quotedSample.typeText sampleQuoted).outcome
        = .ok "Annotated[B, 3] | Literal['a'] | (D, [*e])" ∧
      ∃ e', quotedSample.readExpr "Annotated[B, 3] | Literal['a'] | (D, [*e])".toList = .ok e' ∧
        (quotedSample.unquote sampleQuoted).SameType e' := by
  obtain ⟨hreads, hroom⟩ :=
    typeText_reads_unquoted rfl writableType_sampleQuoted typeText_sampleQuoted
  obtain ⟨e', he'⟩ := hroom (by decide)
  exact ⟨writableType_sampleQuoted, typeText_sampleQuoted, e', he', hreads e' he'⟩

theorem literalStrings_kept_on_sample : WritableType quotedSample sampleDialect sampleQuoted ∧
      sampleQuoted.literalStrings false = [points "a"] ∧
      ∃ e', quotedSample.readExpr "Annotated[B, 3] | Literal['a'] | (D, [*e])".toList = .ok e' ∧
        [points "a"].Sublist (e'.literalStrings false) := by
  have hlegible := writableType_sampleQuoted.typeReads.legible typeText_sampleQuoted
  obtain ⟨e', hread⟩ := (reads_of_legible (s := quotedSample) rfl hlegible).2 (by decide)
  exact ⟨writableType_sampleQuoted, rfl, e', hread,
    literalStrings_kept rfl writableType_sampleQuoted typeText_sampleQuoted hread⟩

/-- **A tuple with one element does not stay a tuple**: its text is the element in brackets. -/
theorem typeText_loses_tuple :
    ∃ text e', (quotedSample.typeText (.tuple .nowhere [sampleName "int"])).outcome = .ok text ∧
      quotedSample.readExpr text.toList = .ok e' ∧
      ¬ (quotedSample.unquote (.tuple .nowhere [sampleName "int"])).SameType e' := by
  have htext : (quotedSample.typeText (.tuple .nowhere [sampleName "int"])).outcome = .ok "(int)" :=
    toOption_eq_some_iff.1 (by decide +kernel)
  have hname : WritableType quotedSample sampleDialect (sampleName "int") :=
    .plain rfl (.name (by decide))
  obtain ⟨hreads, hroom⟩ :=
    reads_of_legible (s := quotedSample) rfl (legible_single hname htext)
  obtain ⟨e', he'⟩ := hroom (by decide)
  refine ⟨_, e', htext, he', fun hsame => ?_⟩
  have helement : e'.shape = (sampleName "int").shape := hreads e' he'
  rw [Expr.SameType, helement, unquote, shape_tuple] at hsame
  cases hsame

/-- **The strings of `typing.Literal` are written out.** -/
theorem typeText_unquotes_dotted_literal :
    (quotedSample.typeText
    (.subscript .nowhere (.attribute .nowhere (sampleName "typing") "Literal")
      (sampleString "a"))).outcome = .ok "typing.Literal[a]" :=
  toOption_eq_some_iff.1 (by decide +kernel)

end Source

end TypeStub
