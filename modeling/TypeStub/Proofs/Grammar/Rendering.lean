import TypeStub.Proofs.Grammar.Completeness
import TypeStub.Proofs.Grammar.Printing
/-!
# Canonical texts are read back

An expression that is written with names, plain constants, operators, displays, members, subscripts
and calls is read from its canonical text as it is, at every level at which it may stand
(`Expr.Writable.readsBack`). Nothing is said of what has a text of its own kind: lambda expressions,
comprehensions, formatted strings, and numbers with a fraction.
-/

namespace TypeStub.Syntax

open TypeStub.Text
/-! ## Writable expressions -/

def Expr.unstarred : Expr → Expr
  | .starred _ value => value
  | e => e

def Expr.indexItems : Expr → List Expr
  | .tuple _ (item :: items) => item :: items
  | e => [e]

def Expr.itemParts : Expr → List Expr
  | .starred _ value => [value]
  | .slice _ lower upper step => lower.toList ++ (upper.toList ++ step.toList)
  | e => [e]

def Entry.parts (entry : Entry Expr) : List Expr :=
  entry.key.toList ++ [entry.value]

/-- The constants that are read back: no numbers with a fraction, no bytes, no text with half of a
surrogate pair. -/
def Constant.isWritable : Constant → Bool
  | .none | .bool _ | .ellipsis | .int _ => true
  | .str points _ => points.all fun n => decide n.isValidChar
  | _ => false

/-- The expressions whose canonical text is read back. -/
inductive Expr.Writable (d : Dialect) : Expr → Prop
  | name {span id} : isName id = true → Writable d (.name span id .load)
  | constant {span c} : c.isWritable = true → Writable d (.constant span c)
  | member {span value attr} :
      Writable d value → isName attr = true → Writable d (.attribute span value attr)
  | subscript {span value index} :
      Writable d value → index.isStarred = false →
      (∀ item ∈ index.indexItems, ∀ e ∈ item.itemParts, Writable d e) →
      Writable d (.subscript span value index)
  | call {span func args keywords} :
      Writable d func → (∀ a ∈ args, Writable d a.unstarred) →
      (∀ k ∈ keywords, ∀ id ∈ k.name, isName id = true) →
      (∀ k ∈ keywords, Writable d k.value) → Writable d (.call span func args keywords)
  | unaryOp {span op operand} :
      Writable d operand → Writable d (.unaryOp span op operand)
  | binOp {span left right op} :
      (op = .matMult → 5 ≤ d.minor) → Writable d left → Writable d right →
      Writable d (.binOp span left op right)
  | boolOp {span op values} :
      2 ≤ values.length → (∀ v ∈ values, Writable d v) →
      Writable d (.boolOp span op values)
  | compare {span left rest} :
      rest ≠ [] → Writable d left → (∀ c ∈ rest, Writable d c.right) →
      Writable d (.compare span left rest)
  | ifExp {span test body orelse} :
      Writable d test → Writable d body → Writable d orelse →
      Writable d (.ifExp span test body orelse)
  | named {span inner id value} :
      isName id = true → 8 ≤ d.minor → Writable d value →
      Writable d (.named span (.name inner id .store) value)
  | list {span elts} :
      (∀ e ∈ elts, Writable d e.unstarred) → Writable d (.list span elts)
  | tuple {span elts} :
      (∀ e ∈ elts, Writable d e.unstarred) → Writable d (.tuple span elts)
  | set {span elts} :
      elts ≠ [] → (∀ e ∈ elts, Writable d e.unstarred) → Writable d (.set span elts)
  | dict {span entries} :
      (∀ entry ∈ entries, ∀ e ∈ entry.parts, Writable d e) →
      Writable d (.dict span entries)

variable {d : Dialect} {e : Expr} {level : Nat}

theorem Expr.Writable.isStarred (h : e.Writable d) : e.isStarred = false := by
  cases h <;> rfl

/-! ## The texts of parts -/

section Texts

variable {sparse : Bool} {level : Nat}

theorem print_int_ok {n text} (h : Constant.print sparse (.int n) = .ok text) :
    n < Nat.pow 10 maxIntDigits ∧ text = decimal n := by
  -- said of any bound, so that the power is not evaluated
  have hpow : ∀ k m : Nat, n < Nat.pow 10 k → k = m → n < Nat.pow 10 m := by
    rintro k _ hn rfl
    exact hn
  rw [Constant.print] at h
  split at h
  · next hn =>
    cases h
    refine ⟨hpow _ maxIntDigits hn ?_, rfl⟩
    rfl
  · cases h

variable {texts : List String}

theorem each_ok {α : Type} {p : α → Except PrintError String}
    {q : List α → Except PrintError (List String)} (hnil : q [] = .ok [])
    (hcons : ∀ a as, q (a :: as) = do return (← p a) :: (← q as)) {as}
    (h : q as = .ok texts) : List.Forall₂ (fun a text => p a = .ok text) as texts := by
  induction as generalizing texts with
  | nil =>
    cases hnil.symm.trans h
    exact .nil
  | cons a rest ih =>
    rw [hcons] at h
    obtain ⟨text, htext, h⟩ := ok_of_bind h
    obtain ⟨more, hmore, h⟩ := ok_of_bind h
    cases h
    exact .cons htext (ih hmore)

theorem printAll_ok {es} (h : printAll sparse es = .ok texts) :
    List.Forall₂ (fun e text => e.print sparse Level.test = .ok text) es texts :=
  each_ok (q := printAll sparse) rfl (fun _ _ => by rw [printAll]) h

theorem printOperands_ok {es} (hlevel : level ≤ Level.atom)
    (h : printOperands sparse level es = .ok texts) :
    List.Forall₂ (fun e text => ∃ level', level ≤ level' ∧ level' ≤ Level.atom ∧
      e.print sparse level' = .ok text) es texts := by
  induction es generalizing texts level with
  | nil =>
    cases h
    exact .nil
  | cons e rest ih =>
    rw [printOperands] at h
    obtain ⟨text, htext, h⟩ := ok_of_bind h
    obtain ⟨more, hmore, h⟩ := ok_of_bind h
    cases h
    refine .cons ⟨level, Nat.le_refl _, hlevel, htext⟩ ((ih (Nat.min_le_left ..) hmore).imp ?_)
    rintro e text ⟨level', hle, hatom, htext⟩
    have hnext : level ≤ Level.next level := by
      rw [Level.next]
      omega
    exact ⟨level', Nat.le_trans hnext hle, hatom, htext⟩

theorem printOption_ok {o text} (h : printOption sparse o = .ok text) : o = none ∧ text = none ∨
      ∃ e t, o = some e ∧ text = some t ∧ e.print sparse Level.test = .ok t := by
  cases o with
  | none =>
    cases h
    exact .inl ⟨rfl, rfl⟩
  | some e =>
    rw [printOption] at h
    obtain ⟨t, ht, h⟩ := ok_of_bind h
    cases h
    exact .inr ⟨e, t, rfl, rfl, ht⟩

theorem printEntries_ok {entries} (h : printEntries sparse entries = .ok texts) :
    List.Forall₂ (fun entry text => printEntry sparse entry = .ok text) entries texts :=
  each_ok (q := printEntries sparse) rfl (fun _ _ => by rw [printEntries]) h

theorem printKeywords_ok {keywords} (h : printKeywords sparse keywords = .ok texts) :
    List.Forall₂ (fun k text => ∃ v, k.value.print sparse Level.test = .ok v ∧
      text = k.name.elim "**" (· ++ "=") ++ v) keywords texts := by
  refine (each_ok (p := printKeyword sparse) rfl (fun _ _ => by rw [printKeywords]) h).imp ?_
  intro k text htext
  rw [printKeyword] at htext
  obtain ⟨v, hv, htext⟩ := ok_of_bind htext
  cases htext
  exact ⟨v, hv, rfl⟩

theorem printComparisons_ok {cs text} (h : printComparisons sparse cs = .ok text) :
    ∃ pieces : List (List Char), text.toList = pieces.flatten ∧
      List.Forall₂ (fun c piece =>
      ∃ right : String, c.right.print sparse Level.bitOr = .ok right ∧
        piece = ' ' :: (c.op.text.toList ++ ' ' :: right.toList)) cs pieces := by
  induction cs generalizing text with
  | nil =>
    cases h
    exact ⟨[], rfl, .nil⟩
  | cons c rest ih =>
    rw [printComparisons] at h
    obtain ⟨first, hfirst, h⟩ := ok_of_bind h
    obtain ⟨more, hmore, h⟩ := ok_of_bind h
    cases h
    obtain ⟨pieces, hpieces, hall⟩ := ih hmore
    rw [printComparison] at hfirst
    obtain ⟨right, hright, hfirst⟩ := ok_of_bind hfirst
    cases hfirst
    exact ⟨_, by simp [hpieces], .cons ⟨right, hright, rfl⟩ hall⟩

end Texts

/-! ## Form by form -/

/-- Wherever the expression may stand, its canonical text is read as the expression. -/
def Expr.ReadsBack (d : Dialect) (e : Expr) : Prop :=
  ∀ (level : Nat) (point : Bool) (text : String), Level.test ≤ level →
    level ≤ Level.atom → (point = true → level = Level.atom ∧ e.isIntLiteral = false) →
    e.print false level = .ok text → Legible d level point text.toList e.SameAs

theorem bracketIf_of_le {own} (h : level ≤ own) (text : String) :
    bracketIf level own text = text :=
  if_neg (Nat.not_lt.2 h)

theorem bracketIf_of_lt {own} (h : own < level) (text : String) :
    bracketIf level own text = "(" ++ text ++ ")" :=
  if_pos h

theorem Expr.ReadsBack.at (h : e.ReadsBack d) {text} (htext : e.print false level = .ok text)
    (hlevel : Level.test ≤ level ∧ level ≤ Level.atom) :
    Legible d level false text.toList e.SameAs :=
  h level false text hlevel.1 hlevel.2 (by simp) htext

theorem Expr.readsBack_of_atom
    (h : ∀ {level : Nat} {text : String}, e.print false level = .ok text →
      Legible d Level.atom true text.toList e.SameAs) : e.ReadsBack d :=
  fun _ _ _ htest hatom _ htext => (h htext).place htest hatom

theorem Expr.readsBack_of_own (own : Nat) (hown : Level.test ≤ own ∧ own < Level.atom)
    (h : ∀ {level : Nat} {text : String}, e.print false level = .ok text →
      ∃ inner : String, text =
      bracketIf level own inner ∧ Legible d own false inner.toList e.SameAs) : e.ReadsBack d := by
  intro level point text htest hatom hpoint htext
  obtain ⟨inner, rfl, hinner⟩ := h htext
  exact hinner.bracketIf hown htest hatom fun heq => (hpoint heq).1

section Forms

variable {d : Dialect} {span : Span}

theorem readsBack_name {id} (h : isName id = true) : (Expr.name span id .load).ReadsBack d := by
  refine Expr.readsBack_of_atom fun htext => ?_
  rw [Expr.print] at htext
  cases htext
  exact legible_name h span

theorem readsBack_str {ps marked} (h : ∀ n ∈ ps, n < 0x110000) :
    (Expr.constant span (.str ps marked)).ReadsBack d := by
  refine Expr.readsBack_of_atom fun htext => ?_
  rw [Expr.print] at htext
  cases htext
  exact legible_quoted h marked span

theorem readsBack_constant {c} (h : c.isWritable = true) : (Expr.constant span c).ReadsBack d := by
  intro level point text htest hatom hpoint hprint
  have htext := hprint
  rw [Expr.print] at htext
  cases c with
  | none =>
    cases htext
    exact (legible_keyword (by decide) rfl span).place htest hatom
  | bool b =>
    cases htext
    cases b <;> exact (legible_keyword (by decide) rfl span).place htest hatom
  | ellipsis =>
    cases htext
    exact (legible_ellipsis span).place htest hatom
  | int n =>
    obtain ⟨hn, rfl⟩ := print_int_ok htext
    obtain rfl : point = false := by
      cases point with
      | false => rfl
      | true => cases (hpoint rfl).2
    exact (legible_int hn span).loosen htest hatom (Nat.le_refl _)
  | str ps marked =>
    have hps : ∀ n ∈ ps, n.isValidChar := by simpa [Constant.isWritable] using h
    exact readsBack_str (fun n hn => lt_of_isValidChar (hps n hn)) level point text htest hatom
      hpoint hprint
  | float _ | imaginary _ | bytes _ => cases h

theorem readsBack_attribute {value attr} (h : value.ReadsBack d) (hattr : isName attr = true) :
    (Expr.attribute span value attr).ReadsBack d := by
  refine Expr.readsBack_of_atom fun {_ text} htext => ?_
  rw [Expr.print] at htext
  obtain ⟨v, hv, htext⟩ := ok_of_bind htext
  cases htext
  have hvalue := h Level.atom (!value.isIntLiteral) v (by decide) (Nat.le_refl _) (by simp) hv
  have hgap : (if value.isIntLiteral then [' '] else []) = [' '] ∨
      (if value.isIntLiteral then [' '] else []) = [] ∧ (!value.isIntLiteral) = true := by
    cases value.isIntLiteral <;> simp
  have hmember := hvalue.member hattr hgap
  have htext : (v ++ (if value.isIntLiteral then " ." else ".") ++ attr).toList
      = v.toList ++ ((if value.isIntLiteral then [' '] else []) ++ '.' :: attr.toList) := by
    cases value.isIntLiteral <;> simp
  rw [htext]
  refine hmember.imp ?_
  rintro e ⟨_, _, rfl, hv⟩
  exact congrArg (Expr.attribute .nowhere · attr) hv

theorem readsBack_ifExp {test body orelse} (htest : test.ReadsBack d) (hbody : body.ReadsBack d)
    (horelse : orelse.ReadsBack d) : (Expr.ifExp span test body orelse).ReadsBack d := by
  refine Expr.readsBack_of_own Level.test (by decide) fun htext => ?_
  rw [Expr.print] at htext
  obtain ⟨b, hb, htext⟩ := ok_of_bind htext
  obtain ⟨t, ht, htext⟩ := ok_of_bind htext
  obtain ⟨o, ho, htext⟩ := ok_of_bind htext
  cases htext
  have hif := Legible.ifExp (hbody.at hb (by decide)) (htest.at ht (by decide))
    (horelse.at ho (by decide))
  refine ⟨_, rfl, ?_⟩
  have htoList : (b ++ " if " ++ t ++ " else " ++ o).toList = b.toList ++ ' ' :: ("if".toList ++
      ' ' :: (t.toList ++ ' ' :: ("else".toList ++ ' ' :: o.toList))) := by simp
  rw [htoList]
  refine hif.imp ?_
  rintro e ⟨_, _, _, _, rfl, hb, ht, ho⟩
  simp only [Expr.SameAs, Expr.unplaced] at hb ht ho ⊢
  rw [hb, ht, ho]

theorem readsBack_unaryOp {op operand} (h : operand.ReadsBack d) :
    (Expr.unaryOp span op operand).ReadsBack d := by
  refine Expr.readsBack_of_own op.level (by cases op <;> decide) fun htext => ?_
  rw [Expr.print] at htext
  obtain ⟨t, ht, htext⟩ := ok_of_bind htext
  cases htext
  refine ⟨_, rfl, ?_⟩
  have hsame : ∀ e, (∃ span' v, e = .unaryOp span' op v ∧ operand.SameAs v) →
      (Expr.unaryOp span op operand).SameAs e := by
    rintro e ⟨_, _, rfl, hv⟩
    exact congrArg (Expr.unaryOp .nowhere op) hv
  have hoperand := h.at ht (by cases op <;> decide)
  by_cases hop : op = .not
  · subst hop
    have htoList : (UnaryOp.not.text ++ t).toList = "not".toList ++ ' ' :: t.toList := by
      simp [UnaryOp.text]
    rw [htoList]
    exact hoperand.not.imp hsame
  · have hlevel : op.level = Level.factor := by cases op <;> first | rfl | exact absurd rfl hop
    rw [hlevel] at hoperand ⊢
    rw [String.toList_append]
    exact (hoperand.sign hop).imp hsame

theorem readsBack_binOp {op left right} (hd : op = .matMult → 5 ≤ d.minor)
    (hleft : left.ReadsBack d) (hright : right.ReadsBack d) :
    (Expr.binOp span left op right).ReadsBack d := by
  have hlevels : (Level.test ≤ op.level ∧ op.level < Level.atom) ∧
      Level.test ≤ op.operandLevels.1 ∧ op.operandLevels.1 ≤ Level.atom ∧
      Level.test ≤ op.operandLevels.2 ∧ op.operandLevels.2 ≤ Level.atom := by
    cases op <;> decide
  refine Expr.readsBack_of_own op.level hlevels.1 fun htext => ?_
  rw [Expr.print] at htext
  obtain ⟨l, hl, htext⟩ := ok_of_bind htext
  obtain ⟨r, hr, htext⟩ := ok_of_bind htext
  cases htext
  refine ⟨_, rfl, ?_⟩
  have hsame : ∀ e, (∃ span' l' r', e = .binOp span' l' op r' ∧ left.SameAs l' ∧
      right.SameAs r') → (Expr.binOp span left op right).SameAs e := by
    rintro e ⟨_, _, _, rfl, hl, hr⟩
    exact congrArg₂ (Expr.binOp .nowhere · op ·) hl hr
  have htoList : (l ++ " " ++ op.text ++ " " ++ r).toList
      = l.toList ++ ' ' :: (op.text.toList ++ ' ' :: r.toList) := by simp
  have hl := hleft.at hl ⟨hlevels.2.1, hlevels.2.2.1⟩
  have hr := hright.at hr hlevels.2.2.2
  rw [htoList]
  by_cases hop : op = .pow
  · subst hop
    exact (hl.power (hr.loosen (by decide) (by decide) (by decide))).imp hsame
  · have hoperands : op.operandLevels = (op.level, op.level + 1) := by
      cases op <;> first | rfl | exact absurd rfl hop
    rw [hoperands] at hl hr
    exact (hl.binary hop hd hr).imp hsame

theorem readsBack_named {inner id value} (hid : isName id = true) (hd : 8 ≤ d.minor)
    (h : value.ReadsBack d) : (Expr.named span (.name inner id .store) value).ReadsBack d := by
  intro level point text htest hatom _ htext
  rw [Expr.print, Expr.print] at htext
  obtain ⟨t, ht, htext⟩ := ok_of_bind htext
  cases ht
  obtain ⟨v, hv, htext⟩ := ok_of_bind htext
  cases htext
  have hvalue : Legible d Level.test false v.toList value.SameAs :=
    (h.at hv (by decide)).loosen (by decide) (by decide) (by decide)
  rw [bracketIf_of_lt (Nat.lt_of_lt_of_le (by decide) htest)]
  refine ((hvalue.walrus hid hd).place htest hatom).imp ?_
  rintro e ⟨_, _, _, rfl, hv⟩
  exact congrArg (Expr.named .nowhere _) hv

/-! Sequences. -/

theorem map_eq_of_forall₂ {α β γ : Type} {f : α → γ} {g : β → γ} {as bs}
    (h : List.Forall₂ (fun a b => g b = f a) as bs) : bs.map g = as.map f := by
  induction h with
  | nil => rfl
  | cons ha _ ih => rw [List.map_cons, List.map_cons, ha, ih]

theorem sameAs_all {es es'} (h : List.Forall₂ Expr.SameAs es es') :
    unplacedAll es' = unplacedAll es := by
  rw [unplacedAll_eq_map, unplacedAll_eq_map]
  exact map_eq_of_forall₂ h

theorem sameAs_comparisons {cs cs'}
    (h : List.Forall₂ (fun c c' => c'.op = c.op ∧ c.right.SameAs c'.right) cs cs') :
    unplacedComparisons cs' = unplacedComparisons cs := by
  induction h with
  | nil => rfl
  | @cons c c' _ _ hc _ ih =>
    obtain ⟨hop, hright⟩ := hc
    rw [unplacedComparisons, unplacedComparisons, ih, unplacedComparison, unplacedComparison, hop,
      hright]

theorem readsBack_boolOp {op values} (htwo : 2 ≤ values.length)
    (h : ∀ v ∈ values, v.ReadsBack d) : (Expr.boolOp span op values).ReadsBack d := by
  have hlevels : (Level.test ≤ op.level ∧ op.level < Level.atom) ∧
      Level.next op.level = op.level + 1 ∧ Level.test ≤ op.level + 1 ∧
      op.level + 1 ≤ Level.atom := by
    cases op <;> decide
  refine Expr.readsBack_of_own op.level hlevels.1 fun htext => ?_
  rw [Expr.print] at htext
  obtain ⟨texts, htexts, htext⟩ := ok_of_bind htext
  cases htext
  refine ⟨_, rfl, ?_⟩
  rw [hlevels.2.1] at htexts
  have hoperands : List.Forall₂ (fun e (text : String) =>
      Legible d (op.level + 1) false text.toList e.SameAs) values texts := by
    refine ((List.forall₂_and_left _ _).2 ⟨h, printOperands_ok hlevels.2.2.2 htexts⟩).imp ?_
    rintro e text ⟨he, level, hle, hatom, htext⟩
    exact (he.at htext ⟨Nat.le_trans hlevels.2.2.1 hle, hatom⟩).loosen hlevels.2.2.1 hle hatom
  match values, texts, htwo, hoperands with
  | e :: e' :: es, text :: texts, _, .cons he hes =>
    refine (legible_boolOp he hes (by simp)).imp ?_
    rintro _ ⟨_, _, rfl, hall⟩
    simp only [Expr.SameAs, Expr.unplaced, sameAs_all hall]

theorem readsBack_compare {left rest} (hne : rest ≠ []) (hleft : left.ReadsBack d)
    (hrest : ∀ c ∈ rest, c.right.ReadsBack d) : (Expr.compare span left rest).ReadsBack d := by
  refine Expr.readsBack_of_own Level.compare (by decide) fun htext => ?_
  rw [Expr.print] at htext
  obtain ⟨l, hl, htext⟩ := ok_of_bind htext
  obtain ⟨r, hr, htext⟩ := ok_of_bind htext
  cases htext
  obtain ⟨pieces, hpieces, hall⟩ := printComparisons_ok hr
  refine ⟨_, rfl, ?_⟩
  rw [String.toList_append, hpieces]
  have hparts : List.Forall₂ (fun c piece => ∃ right : List Char,
      piece = ' ' :: (c.op.text.toList ++ ' ' :: right) ∧
        Legible d Level.bitOr false right c.right.SameAs) rest pieces := by
    refine ((List.forall₂_and_left _ _).2 ⟨hrest, hall⟩).imp ?_
    rintro c piece ⟨hc, right, hright, rfl⟩
    exact ⟨right.toList, rfl, hc.at hright (by decide)⟩
  refine (legible_compare (R := fun c => c.right.SameAs)
    (hleft.at hl (by decide)) hparts hne).imp ?_
  rintro _ ⟨_, _, cs', rfl, hsame, hcs⟩
  exact congrArg₂ (Expr.compare .nowhere) hsame (sameAs_comparisons hcs)

theorem Expr.unstarred_cases (e : Expr) : (∃ span v, e = .starred span v) ∨
    e.unstarred = e := by
  cases e <;> simp [unstarred]

/-- The starred value of something that is read back. -/
theorem sameAs_starred {v e} (h : ∃ span' v', e = .starred span' v' ∧ v.SameAs v') :
    (Expr.starred span v).SameAs e := by
  obtain ⟨_, _, rfl, hv⟩ := h
  exact congrArg (Expr.starred .nowhere) hv

variable {text : String}

theorem Expr.ReadsBack.starred {v} (h : v.ReadsBack d)
    (htext : (Expr.starred span v).print false Level.test = .ok text) :
    ∃ t, text.toList = '*' :: t ∧ Legible d Level.bitOr false t v.SameAs := by
  rw [Expr.print] at htext
  obtain ⟨t, ht, htext⟩ := ok_of_bind htext
  cases htext
  exact ⟨t.toList, String.toList_append, h.at ht (by decide)⟩

theorem goes_printElement {e : Expr} (h : e.unstarred.ReadsBack d)
    (htext : e.print false Level.test = .ok text) :
    GoesIn false text.toList (IsPhrase d .element e.SameAs) := by
  rcases e.unstarred_cases with ⟨span, v, rfl⟩ | hplain
  · obtain ⟨t, ht, hv⟩ := Expr.ReadsBack.starred h htext
    rw [ht]
    refine (hv.goes_starred .named).imp ?_
    rintro _ ⟨e, hp, he⟩
    exact ⟨e, hp, sameAs_starred he⟩
  · rw [hplain] at h
    exact (h.at htext (by decide)).goes_element

theorem areElements_of_readsBack {es texts} (h : ∀ e ∈ es, e.unstarred.ReadsBack d)
    (htexts : printAll false es = .ok texts) : AreElements d .element Expr.SameAs es texts :=
  ((List.forall₂_and_left _ _).2 ⟨h, printAll_ok htexts⟩).imp
    fun _ _ he => goes_printElement he.1 he.2

theorem readsBack_list {elts} (h : ∀ e ∈ elts, e.unstarred.ReadsBack d) :
    (Expr.list span elts).ReadsBack d := by
  refine Expr.readsBack_of_atom fun {_ text} htext => ?_
  rw [Expr.print] at htext
  obtain ⟨texts, htexts, htext⟩ := ok_of_bind htext
  cases htext
  refine (legible_list (areElements_of_readsBack h htexts)).imp ?_
  rintro _ ⟨_, _, rfl, hes⟩
  simp only [Expr.SameAs, Expr.unplaced, sameAs_all hes]

theorem readsBack_set {elts} (hne : elts ≠ []) (h : ∀ e ∈ elts, e.unstarred.ReadsBack d) :
    (Expr.set span elts).ReadsBack d := by
  refine Expr.readsBack_of_atom fun {_ text} htext => ?_
  rw [Expr.print] at htext
  obtain ⟨texts, htexts, htext⟩ := ok_of_bind htext
  cases htext
  rw [if_neg (by simpa using hne)]
  refine (legible_set (areElements_of_readsBack h htexts) hne).imp ?_
  rintro _ ⟨_, _, rfl, hes⟩
  simp only [Expr.SameAs, Expr.unplaced, sameAs_all hes]

theorem readsBack_tuple {elts} (h : ∀ e ∈ elts, e.unstarred.ReadsBack d) :
    (Expr.tuple span elts).ReadsBack d := by
  intro level point text htest hatom _ htext
  rw [Expr.print] at htext
  obtain ⟨texts, htexts, htext⟩ := ok_of_bind htext
  by_cases hne : elts = []
  · subst hne
    cases htext
    refine (legible_noTuple.place htest hatom).imp ?_
    rintro _ ⟨_, rfl⟩
    rfl
  · have hnotEmpty : elts.isEmpty = false := by simpa using hne
    rw [hnotEmpty] at htext
    cases htext
    rw [bracketIf_of_lt (Nat.lt_of_lt_of_le (by decide) htest)]
    refine ((legible_tuple (goes_tupleItems
      (areElements_of_readsBack h htexts).trees hne)).place htest hatom).imp ?_
    rintro _ ⟨_, _, rfl, hes⟩
    simp only [Expr.SameAs, Expr.unplaced, sameAs_all hes]

/-! Entries and arguments. -/

theorem sameAs_entries {entries entries'}
    (h : List.Forall₂ (fun entry entry' => unplacedEntry entry' = unplacedEntry entry)
      entries entries') : unplacedEntries entries' = unplacedEntries entries := by
  induction h with
  | nil => rfl
  | cons he _ ih => rw [unplacedEntries, unplacedEntries, he, ih]

theorem goes_printEntry {entry} (h : ∀ e ∈ entry.parts, e.ReadsBack d)
    (htext : printEntry false entry = .ok text) :
    GoesIn false text.toList (IsTree d .entry
      (Tree.IsMade .entry fun entry' => unplacedEntry entry' = unplacedEntry entry)) := by
  obtain ⟨key, value⟩ := entry
  have hvalue : value.ReadsBack d := h value (by simp [Entry.parts])
  cases key with
  | none =>
    rw [printEntry] at htext
    obtain ⟨v, hv, htext⟩ := ok_of_bind htext
    cases htext
    rw [String.toList_append]
    refine ((hvalue.at hv (by decide)).goes_unpackedEntry).imp ?_
    rintro _ ⟨_, hp, _, rfl, v, rfl, hv⟩
    refine ⟨_, hp, _, rfl, ?_⟩
    simp only [unplacedEntry]
    rw [hv]
  | some key =>
    have hkey : key.ReadsBack d := h key (by simp [Entry.parts])
    rw [printEntry] at htext
    obtain ⟨k, hk, htext⟩ := ok_of_bind htext
    obtain ⟨v, hv, htext⟩ := ok_of_bind htext
    cases htext
    have htoList : (k ++ ": " ++ v).toList = k.toList ++ ':' :: ' ' :: v.toList := by simp
    rw [htoList]
    refine ((hkey.at hk (by decide)).goes_plainEntry
      (hvalue.at hv (by decide))).imp ?_
    rintro _ ⟨_, hp, _, rfl, k, v, rfl, hk, hv⟩
    refine ⟨_, hp, _, rfl, ?_⟩
    simp only [unplacedEntry, unplacedOption]
    rw [hk, hv]

theorem readsBack_dict {entries} (h : ∀ entry ∈ entries, ∀ e ∈ entry.parts, e.ReadsBack d) :
    (Expr.dict span entries).ReadsBack d := by
  refine Expr.readsBack_of_atom fun {_ text} htext => ?_
  rw [Expr.print] at htext
  obtain ⟨texts, htexts, htext⟩ := ok_of_bind htext
  cases htext
  have hall : AreTrees d .entry (fun entry => Tree.IsMade .entry
      fun entry' => unplacedEntry entry' = unplacedEntry entry) entries texts := by
    refine ((List.forall₂_and_left _ _).2 ⟨h, printEntries_ok htexts⟩).imp ?_
    rintro entry text ⟨hentry, htext⟩
    exact goes_printEntry hentry htext
  refine (legible_dict hall).imp ?_
  rintro _ ⟨_, _, rfl, hentries⟩
  simp only [Expr.SameAs, Expr.unplaced, sameAs_entries hentries]

def Expr.toArgument (e : Expr) : Argument :=
  if e.isStarred then .starred e else .positional e

def Keyword.toArgument (k : Keyword Expr) : Argument :=
  k.name.elim (.unpacked k.value) (.named · k.value)

theorem addAll_toArgument (args : List Expr) {st : ArgState} {more} (h : st.sawKeyword = false)
    (h' : st.sawDoubleStar = false) : st.addAll (args.map Expr.toArgument ++ more)
      = { st with args := st.args ++ args }.addAll more := by
  induction args generalizing st with
  | nil => simp
  | cons e rest ih =>
    have hadd : st.add e.toArgument = some { st with args := st.args ++ [e] } := by
      unfold Expr.toArgument
      split <;> simp [ArgState.add, h, h']
    rw [List.map_cons, List.cons_append, ArgState.addAll, hadd, Option.bind_some, ih]
    · simp
    · exact h
    · exact h'

theorem addAll_keywords (keywords : List (Keyword Expr)) (st : ArgState) :
    ∃ st', st.addAll (keywords.map Keyword.toArgument) = some st' ∧ st'.args = st.args ∧
      st'.keywords = st.keywords ++ keywords := by
  induction keywords generalizing st with
  | nil => exact ⟨st, rfl, rfl, by simp⟩
  | cons k rest ih =>
    obtain ⟨name, value⟩ := k
    cases name with
    | none =>
      obtain ⟨st', hst', hargs, hkeywords⟩ := ih { st with
        keywords := st.keywords ++ [{ name := none, value }], sawDoubleStar := true }
      exact ⟨st', hst', hargs, by simpa using hkeywords⟩
    | some id =>
      obtain ⟨st', hst', hargs, hkeywords⟩ := ih { st with
        keywords := st.keywords ++ [{ name := some id, value }], sawKeyword := true }
      exact ⟨st', hst', hargs, by simpa using hkeywords⟩

/-- The arguments of a call can be put together from its positional and its named ones. -/
theorem addAll_arguments (args : List Expr) (keywords : List (Keyword Expr)) :
    ∃ st, ArgState.empty.addAll (args.map Expr.toArgument ++ keywords.map Keyword.toArgument)
      = some st ∧ st.args = args ∧ st.keywords = keywords := by
  obtain ⟨st, hst, hargs, hkeywords⟩ := addAll_keywords keywords { ArgState.empty with args }
  refine ⟨st, ?_, hargs, by simpa [ArgState.empty] using hkeywords⟩
  rw [addAll_toArgument args rfl rfl]
  exact hst

theorem goes_toArgument {e : Expr} (h : e.unstarred.ReadsBack d)
    (htext : e.print false Level.test = .ok text) :
    GoesIn false text.toList (IsTree d .argument
      (Tree.IsMade .argument fun a => a.unplaced = e.toArgument.unplaced)) := by
  by_cases hstar : e.isStarred = true
  · obtain ⟨span, v, rfl⟩ : ∃ span v, e = .starred span v := by
      cases e <;> simp_all [Expr.isStarred]
    obtain ⟨t, ht, hv⟩ := Expr.ReadsBack.starred h htext
    have hvalue : Legible d Level.test false t v.SameAs :=
      hv.loosen (by decide) (by decide) (by decide)
    rw [ht]
    refine (hvalue.goes_starredArgument).imp ?_
    rintro _ ⟨_, hp, _, rfl, span', v', rfl, hv⟩
    have hsame : (Expr.starred span v).SameAs (.starred span' v') :=
      sameAs_starred ⟨_, _, rfl, hv⟩
    refine ⟨_, hp, _, rfl, ?_⟩
    rw [Expr.toArgument, if_pos hstar]
    exact congrArg Argument.starred hsame
  · have hplain : e.unstarred = e := by
      rcases e.unstarred_cases with ⟨span, v, rfl⟩ | hplain
      · exact absurd rfl hstar
      · exact hplain
    rw [hplain] at h
    refine ((h.at htext (by decide)).goes_positional).imp ?_
    rintro _ ⟨_, hp, _, rfl, e', rfl, he⟩
    refine ⟨_, hp, _, rfl, ?_⟩
    rw [Expr.toArgument, if_neg hstar]
    exact congrArg Argument.positional he

theorem goes_keywordArgument {k : Keyword Expr} {v} (hname : ∀ id ∈ k.name, isName id = true)
    (h : k.value.ReadsBack d) (hv : k.value.print false Level.test = .ok v) :
    GoesIn false (k.name.elim "**" (· ++ "=") ++ v).toList (IsTree d .argument
      (Tree.IsMade .argument fun a => a.unplaced = k.toArgument.unplaced)) := by
  obtain ⟨name, value⟩ := k
  have hvalue := h.at hv (by decide)
  cases name with
  | none =>
    rw [String.toList_append]
    refine (hvalue.goes_unpackedArgument).imp ?_
    rintro _ ⟨_, hp, _, rfl, e', rfl, he⟩
    exact ⟨_, hp, _, rfl, congrArg Argument.unpacked he⟩
  | some id =>
    have htoList : ((some id).elim "**" (· ++ "=") ++ v).toList
        = id.toList ++ ("=".toList ++ v.toList) := by simp
    rw [htoList]
    refine (hvalue.goes_namedArgument (hname id rfl)).imp ?_
    rintro _ ⟨_, hp, _, rfl, e', rfl, he⟩
    exact ⟨_, hp, _, rfl, congrArg (Argument.named id) he⟩

theorem readsBack_call {func : Expr} {args keywords} (hfunc : func.ReadsBack d)
    (hargs : ∀ a ∈ args, a.unstarred.ReadsBack d)
    (hnames : ∀ k ∈ keywords, ∀ id ∈ k.name, isName id = true)
    (hkeywords : ∀ k ∈ keywords, k.value.ReadsBack d) :
    (Expr.call span func args keywords).ReadsBack d := by
  refine Expr.readsBack_of_atom fun {_ text} htext => ?_
  rw [Expr.print] at htext
  obtain ⟨f, hf, htext⟩ := ok_of_bind htext
  obtain ⟨as, has, htext⟩ := ok_of_bind htext
  obtain ⟨ks, hks, htext⟩ := ok_of_bind htext
  cases htext
  have hall : AreTrees d .argument (fun a => Tree.IsMade .argument fun a' =>
    a'.unplaced = a.unplaced)
      (args.map Expr.toArgument ++ keywords.map Keyword.toArgument) (as ++ ks) := by
    refine List.rel_append ?_ ?_
    · rw [List.forall₂_map_left_iff]
      exact ((List.forall₂_and_left _ _).2 ⟨hargs, printAll_ok has⟩).imp
        fun a text ha => goes_toArgument ha.1 ha.2
    · rw [List.forall₂_map_left_iff]
      refine ((List.forall₂_and_left _ _).2
        ⟨fun k hk => And.intro (hnames k hk) (hkeywords k hk), printKeywords_ok hks⟩).imp ?_
      rintro k text ⟨⟨hname, hvalue⟩, v, hv, rfl⟩
      exact goes_keywordArgument hname hvalue hv
  obtain ⟨st, hst, rfl, rfl⟩ := addAll_arguments args keywords
  have hsame : GoesIn false (join ", " (as ++ ks)).toList (fun ts => ∃ as' st',
      Phrase d .arguments ts (as'.map .argument) ∧ ArgState.empty.addAll as' = some st' ∧
        st'.unplaced = st.unplaced) := by
    refine (goes_arguments hall).imp ?_
    rintro ts ⟨as', hp, has'⟩
    obtain ⟨st', hst', heq⟩ := ArgState.addAll_moved hst (map_eq_of_forall₂ has')
    exact ⟨as', st', hp, hst', heq⟩
  refine ((hfunc.at hf (by decide)).call hsame).imp ?_
  rintro _ ⟨_, _, st', rfl, hv, hst'⟩
  simp only [Expr.SameAs, Expr.unplaced_call] at hv ⊢
  rw [hv, hst']

/-! Subscripts. -/

theorem Expr.itemParts_cases (e : Expr) : (∃ span v, e = .starred span v) ∨
    (∃ span lower upper step, e = .slice span lower upper step) ∨
      e.isStarred = false ∧ e.itemParts = [e] := by
  cases e <;> simp [itemParts, isStarred]

theorem goesOption_printOption {o text} (h : ∀ e ∈ o, e.ReadsBack d)
    (htext : printOption false o = .ok text) :
    GoesOption d .bound (text.getD "").toList (fun o' => unplacedOption o' = unplacedOption o) := by
  rcases printOption_ok htext with ⟨rfl, rfl⟩ | ⟨e, t, rfl, rfl, ht⟩
  · exact goesOption_none .noBound rfl
  · exact ((h e rfl).at ht (by decide)).goesOption_bound fun _ => congrArg some

theorem goesOption_printStep {o text} (h : ∀ e ∈ o, e.ReadsBack d)
    (htext : printOption false o = .ok text) : GoesOption d .step (text.elim "" (":" ++ ·)).toList
      (fun o' => unplacedOption o' = unplacedOption o) := by
  rcases printOption_ok htext with ⟨rfl, rfl⟩ | ⟨e, t, rfl, rfl, ht⟩
  · exact goesOption_none .noStep rfl
  · rw [Option.elim_some, String.toList_append]
    exact ((h e rfl).at ht (by decide)).goesOption_step fun _ => congrArg some

theorem goes_item {e : Expr} (h : ∀ part ∈ e.itemParts, part.ReadsBack d)
    (htext : e.print false Level.test = .ok text) :
    GoesIn false text.toList (IsPhrase d .slice e.SameAs) := by
  rcases e.itemParts_cases with ⟨span, v, rfl⟩ | ⟨span, lower, upper, step,
    rfl⟩ | ⟨-, hparts⟩
  · obtain ⟨t, ht, hv⟩ := Expr.ReadsBack.starred (h v (by simp [Expr.itemParts])) htext
    have hvalue : Legible d Level.test false t v.SameAs :=
      hv.loosen (by decide) (by decide) (by decide)
    rw [ht]
    refine (hvalue.goes_starredSlice).imp ?_
    rintro _ ⟨e, hp, he⟩
    exact ⟨e, hp, sameAs_starred he⟩
  · rw [Expr.print] at htext
    obtain ⟨l, hl, htext⟩ := ok_of_bind htext
    obtain ⟨u, hu, htext⟩ := ok_of_bind htext
    obtain ⟨s, hs, htext⟩ := ok_of_bind htext
    cases htext
    have hlower := goesOption_printOption (fun e he => h e (by simp_all [Expr.itemParts])) hl
    have hupper := goesOption_printOption (fun e he => h e (by simp_all [Expr.itemParts])) hu
    have hstep := goesOption_printStep (fun e he => h e (by simp_all [Expr.itemParts])) hs
    have hnext : (s.elim "" (":" ++ ·)).toList = [] ∨ ∃ r,
        (s.elim "" (":" ++ ·)).toList = ':' :: r := by
      cases s with
      | none => exact .inl rfl
      | some s => exact .inr ⟨s.toList, by simp⟩
    have htoList : (l.getD "" ++ ":" ++ u.getD "" ++ s.elim "" (":" ++ ·)).toList
        = (l.getD "").toList ++ ':' :: ((u.getD "").toList ++ (s.elim "" (":" ++ ·)).toList) := by
      simp
    rw [htoList]
    refine (goes_sliceParts hlower hupper hstep hnext).imp ?_
    rintro _ ⟨_, hp, _, l', u', s', rfl, hl', hu', hs'⟩
    refine ⟨_, hp, ?_⟩
    simp only [Expr.SameAs, Expr.unplaced, hl', hu', hs']
  · have he : e.ReadsBack d := h e (by simp [hparts])
    exact (he.at htext (by decide)).goes_slice

theorem Expr.indexItems_cases (e : Expr) :
    (∃ span items, e = .tuple span items ∧ items ≠ [] ∧ e.indexItems = items) ∨
      e.indexItems = [e] ∧ ((∃ span, e = .tuple span []) ∨ e.indexLevel = Level.test) := by
  cases e with
  | tuple span items => cases items <;> simp [indexItems]
  | _ => simp [indexItems, indexLevel]

theorem print_noTuple (level : Nat) :
    Expr.print false level (.tuple span []) = Expr.print false Level.test (.tuple span []) := by
  rw [Expr.print, Expr.print]
  rfl

theorem goes_printIndex {e : Expr} (hstar : e.isStarred = false)
    (h : ∀ item ∈ e.indexItems, ∀ part ∈ item.itemParts, part.ReadsBack d)
    (htext : e.print false e.indexLevel = .ok text) :
    GoesIn false text.toList (IsPhrase d .index e.SameAs) := by
  rcases e.indexItems_cases with ⟨span, items, rfl, hne, hitems⟩ | ⟨hitems, hform⟩
  · rw [Expr.print] at htext
    obtain ⟨texts, htexts, htext⟩ := ok_of_bind htext
    have hnotEmpty : items.isEmpty = false := by simpa using hne
    rw [hnotEmpty] at htext
    cases htext
    rw [hitems] at h
    have hall : AreElements d .slice Expr.SameAs items texts := by
      refine ((List.forall₂_and_left _ _).2 ⟨h, printAll_ok htexts⟩).imp ?_
      rintro e text ⟨he, htext⟩
      exact goes_item he htext
    have htext : bracketIf Level.tuple Level.tuple (tupleItems texts) = tupleItems texts :=
      if_neg (Nat.lt_irrefl _)
    rw [Expr.indexLevel, htext]
    refine (goes_indices hall hne).imp ?_
    rintro _ ⟨_, hp, _, _, rfl, hes⟩
    refine ⟨_, hp, ?_⟩
    simp only [Expr.SameAs, Expr.unplaced, sameAs_all hes]
  · have htest : e.print false Level.test = .ok text := by
      rcases hform with ⟨span, rfl⟩ | hlevel
      · rw [← htext, print_noTuple (Expr.tuple span []).indexLevel]
      · rw [← hlevel, htext]
    refine goes_index (goes_item (h e (by simp [hitems])) htest) fun e' he' => ?_
    have hstarred : ∀ e : Expr, e.unplaced.isStarred = e.isStarred := by
      intro e
      cases e <;> rfl
    rw [← hstarred e', he', hstarred, hstar]

theorem readsBack_subscript {value index : Expr} (hvalue : value.ReadsBack d)
    (hstar : index.isStarred = false)
    (h : ∀ item ∈ index.indexItems, ∀ part ∈ item.itemParts, part.ReadsBack d) :
    (Expr.subscript span value index).ReadsBack d := by
  refine Expr.readsBack_of_atom fun {_ text} htext => ?_
  rw [Expr.print] at htext
  obtain ⟨v, hv, htext⟩ := ok_of_bind htext
  obtain ⟨i, hi, htext⟩ := ok_of_bind htext
  cases htext
  refine ((hvalue.at hv (by decide)).subscript (goes_printIndex hstar h hi)).imp ?_
  rintro _ ⟨_, _, _, rfl, hv, hi⟩
  exact congrArg₂ (Expr.subscript .nowhere) hv hi

end Forms

/-- **The canonical text of an expression is read as the expression**, at every level at which it
may stand. -/
theorem Expr.Writable.readsBack (h : e.Writable d) : e.ReadsBack d := by
  induction h with
  | name hid => exact readsBack_name hid
  | constant hc => exact readsBack_constant hc
  | member _ hattr ih => exact readsBack_attribute ih hattr
  | subscript _ hstar _ ih ihs => exact readsBack_subscript ih hstar ihs
  | call _ _ hnames _ ih ihs ihks => exact readsBack_call ih ihs hnames ihks
  | unaryOp _ ih => exact readsBack_unaryOp ih
  | binOp hd _ _ ih ih' => exact readsBack_binOp hd ih ih'
  | boolOp htwo _ ih => exact readsBack_boolOp htwo ih
  | compare hne _ _ ih ihs => exact readsBack_compare hne ih ihs
  | ifExp _ _ _ ih ih' ih'' => exact readsBack_ifExp ih ih' ih''
  | named hid hd _ ih => exact readsBack_named hid hd ih
  | list _ ih => exact readsBack_list ih
  | tuple _ ih => exact readsBack_tuple ih
  | set hne _ ih => exact readsBack_set hne ih
  | dict _ ih => exact readsBack_dict ih

/-! ## Expressions on their own -/

/-- How tight an expression binds as it is written on its own. -/
def Expr.rank : Expr → Nat
  | .boolOp _ op _ => op.level
  | .binOp _ _ op _ => op.level
  | .unaryOp _ op _ => op.level
  | .lambda .. | .ifExp .. => Level.test
  | .compare .. => Level.compare
  | .await .. => Level.await
  | _ => Level.atom

theorem Expr.rank_bounds (e : Expr) : Level.test ≤ e.rank ∧ e.rank ≤ Level.atom := by
  unfold rank
  split
  iterate 3
    · next op _ => cases op <;> decide
  all_goals decide

/-- At the levels up to its own an expression is written as on its own. -/
theorem Expr.print_of_le_rank (htest : Level.test ≤ level) (h : level ≤ e.rank) :
    e.print false level = e.render := by
  have hloose : ∀ own, own < Level.test → ∀ text,
      bracketIf level own text = bracketIf Level.test own text := by
    intro own hown text
    rw [bracketIf_of_lt hown, bracketIf_of_lt (Nat.lt_of_lt_of_le hown htest)]
  have hown : ∀ text, bracketIf level e.rank text = bracketIf Level.test e.rank text := by
    intro text
    rw [bracketIf_of_le h, bracketIf_of_le (Nat.le_trans htest h)]
  rw [render]
  cases e with
  | named | tuple | yieldFrom => simp only [print, hloose _ (by decide : Level.named < Level.test),
      hloose _ (by decide : Level.tuple < Level.test),
      hloose _ (by decide : Level.yield < Level.test)]
  | yield _ value =>
    cases value <;> simp only [print, hloose _ (by decide : Level.yield < Level.test)]
  | boolOp | binOp | unaryOp | lambda | ifExp | compare | await =>
    simp only [rank] at hown
    simp only [print, hown]
  | _ => simp only [print]

theorem Expr.Writable.legible (h : e.Writable d) {text : String} (htext : e.render = .ok text)
    (htest : Level.test ≤ level) (hlevel : level ≤ e.rank) :
    Legible d level false text.toList e.SameAs :=
  h.readsBack.at (by rw [print_of_le_rank htest hlevel, htext])
    ⟨htest, Nat.le_trans hlevel e.rank_bounds.2⟩

theorem isPlain_of_isSteady {kind : TokenKind} (h : kind.isSteady = true) :
    kind.isPlain = true := by
  cases kind <;> first | rfl | exact h

section Reading

variable {text : List Char} {Q : Expr → Prop}

theorem Begins.head (h : Begins text) : ∃ c r, text = c :: r ∧ isGap c = false := by
  obtain ⟨c, r, htext, hc, -⟩ := h
  exact ⟨c, r, htext, hc⟩

/-- A text that can stand for an expression is read as such if there is room for its brackets. -/
theorem parseExpression_of_tokenize (h : Legible d Level.test false text Q) {x}
    (hx : tokenize d .origin false text = some x) :
    ∃ e, parseExpression d text = some e ∧ Q e := by
  obtain ⟨ts, m, htokens, hm, hlength, hsteady, e, hphrase, he⟩ :=
    (tokenize_of_goes (h.goes []) endsExpr_nil h.begins.head d).1 _ hx
  obtain ⟨_, n⟩ := x
  obtain rfl := htokens
  refine ⟨e, parseExpression_accepts hx hm (.single hphrase) ⟨?_, ?_⟩, he⟩
  · omega
  · exact fun t ht => isPlain_of_isSteady (hsteady t ht)

/-- **A text that can stand for an expression is read as such**, and it is read if there is room for
its brackets. -/
theorem parseExpression_of_legible (h : Legible d Level.test false text Q) :
    (∀ e, parseExpression d text = some e → Q e) ∧
      (openings text ≤ maxBrackets → ∃ e, parseExpression d text = some e) := by
  constructor
  · intro e he
    obtain ⟨x, hx, -⟩ := Option.bind_eq_some_iff.1 he
    obtain ⟨e', he', hQ⟩ := parseExpression_of_tokenize h hx
    obtain rfl := Option.some.inj (he.symm.trans he')
    exact hQ
  · intro hbrackets
    obtain ⟨x, hx⟩ := (tokenize_of_goes (h.goes []) endsExpr_nil h.begins.head d).2 hbrackets
    obtain ⟨e, he, -⟩ := parseExpression_of_tokenize h hx
    exact ⟨e, he⟩

end Reading

/-- Expressions with the same canonical text are the same. -/
theorem Expr.Writable.eq_of_render {e' : Expr} (h : e.Writable d) (h' : e'.Writable d)
    {text : String} (htext : e.render = .ok text) (htext' : e'.render = .ok text)
    (hroom : openings text.toList ≤ maxBrackets) : e.unplaced = e'.unplaced := by
  have hread := parseExpression_of_legible (h.readsBack.at htext (by decide))
  have hread' := parseExpression_of_legible (h'.readsBack.at htext' (by decide))
  obtain ⟨x, hx⟩ := hread.2 hroom
  have hsame : x.unplaced = e.unplaced := hread.1 x hx
  have hsame' : x.unplaced = e'.unplaced := hread'.1 x hx
  rw [← hsame, hsame']

theorem Expr.Writable.eq_name (h : e.Writable d) {id} (htext : e.render = .ok id)
    (hid : isName id = true) : ∃ span, e = .name span id .load := by
  have hroom : openings id.toList ≤ maxBrackets := by
    obtain ⟨-, -, -, hchars⟩ := isName_chars hid
    have hnone : openings id.toList = 0 := by
      refine List.countP_eq_zero.2 fun c hc hopen => ?_
      have hname := hchars c hc
      have hchar : c = '(' ∨ c = '[' ∨ c = '\x7b' := by
        simpa [isOpening, or_assoc] using hopen
      rcases hchar with rfl | rfl | rfl <;> exact absurd hname (by decide)
    omega
  have hname : (Expr.name .nowhere id .load).render = .ok id := by
    rw [render, print]
    rfl
  exact eq_name_of_unplaced (h.eq_of_render (.name hid) htext hname hroom)

end TypeStub.Syntax
