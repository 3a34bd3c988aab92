import TypeStub.Proofs.Grammar.Rendering
/-!
# How the text of an expression ends

Behind a type, ` = ...` says that a parameter has a default value. A type whose own text ended like
that could not be told from a shorter type with a default value. No expression has such a text, as
long as the name that it ends with, if it ends with one, is a name (`Expr.EndsNamed.harmless`).

How the proof goes. Only an ellipsis can end with a dot: names, numbers, quotes and brackets do not.
So the question is what can stand in front of an ellipsis, and that is the sign of an operator,
never the end of ` = `. Both halves compose: `Guards` says of a text that an ellipsis may follow it,
and `Harmless` of a text that it may follow any text that guards. A sign guards whatever stands in
front of it (`Guarding`), so an expression that ends with a harmless one is harmless itself, and the
rest is an induction along the right edge of the tree.
-/

namespace TypeStub

open TypeStub.Syntax TypeStub.Text TypeStub.Number

/-! ## Texts that do not end with the mark of a default value -/

namespace Text

def defaultMark : List Char := " = ...".toList

/-- An ellipsis behind the text is no default value, and neither does the text end with one. -/
structure Guards (front : List Char) : Prop where
  sign : ¬ " = ".toList <:+ front
  mark : ¬ defaultMark <:+ front

/-- Behind everything that guards, the text does not end with a default value. -/
def Harmless (t : String) : Prop :=
  ∀ front, Guards front → ¬ defaultMark <:+ front ++ t.toList

/-- The text guards, whatever stands in front of it. -/
def Guarding (t : String) : Prop :=
  ∀ front, Guards (front ++ t.toList)

variable {t r : String}

theorem Harmless.unmarked (h : Harmless t) : ¬ defaultMark <:+ t.toList :=
  h [] ⟨by decide, by decide⟩

/-- The last character is there, and it is no dot. -/
def endsSafely (cs : List Char) : Bool :=
  cs.getLast?.any (· != '.')

theorem unmarked_of_endsSafely {cs} (front : List Char) (h : endsSafely cs = true) :
    ¬ defaultMark <:+ front ++ cs := by
  obtain ⟨c, hlast, hc⟩ := (Option.any_eq_true _ _).1 h
  rintro ⟨more, heq⟩
  have hdot := congrArg List.getLast? heq
  rw [List.getLast?_append_of_ne_nil _ (by decide), List.getLast?_append, hlast] at hdot
  exact absurd (Option.some.inj hdot).symm (bne_iff_ne.1 hc)

theorem harmless_of_last (h : endsSafely t.toList = true) : Harmless t :=
  fun front _ => unmarked_of_endsSafely front h

theorem endsSafely_append {cs} (front : List Char) (h : endsSafely cs = true) :
    endsSafely (front ++ cs) = true := by
  obtain ⟨c, hlast, hc⟩ := (Option.any_eq_true _ _).1 h
  rw [endsSafely, List.getLast?_append, hlast]
  exact hc

theorem harmless_append (t : String) (h : endsSafely r.toList = true) : Harmless (t ++ r) :=
  harmless_of_last (by rw [String.toList_append]; exact endsSafely_append _ h)

theorem harmless_ofList {cs} (front : List Char) (h : endsSafely cs = true) :
    Harmless (String.ofList (front ++ cs)) :=
  harmless_of_last (by rw [String.toList_ofList]; exact endsSafely_append _ h)

theorem harmless_empty : Harmless "" := by
  intro front hfront
  rw [String.toList_empty, List.append_nil]
  exact hfront.mark

theorem harmless_ellipsis : Harmless "..." := by
  rintro front hfront ⟨more, heq⟩
  have hsign : more ++ " = ".toList ++ "...".toList = front ++ "...".toList := by
    rw [List.append_assoc]
    exact heq
  exact hfront.sign ⟨more, List.append_cancel_right hsign⟩

/-- Whether a text guards by itself: it does not end with a dot, and it is neither a part of ` = `
nor ends with it. -/
def isGuard (t : String) : Bool :=
  endsSafely t.toList && !t.toList.isSuffixOf " = ".toList &&
    !" = ".toList.isSuffixOf t.toList

theorem guarding_of_isGuard (h : isGuard t = true) : Guarding t := by
  intro front
  simp only [isGuard, Bool.and_eq_true, Bool.not_eq_true', ← Bool.not_eq_true,
    List.isSuffixOf_iff_suffix] at h
  obtain ⟨⟨hlast, hpart⟩, hends⟩ := h
  refine ⟨fun hsign => ?_, unmarked_of_endsSafely front hlast⟩
  exact (List.suffix_or_suffix_of_suffix hsign (List.suffix_append ..)).elim hends hpart

theorem Guarding.append_left (h : Guarding t) (l : String) : Guarding (l ++ t) := by
  intro front
  rw [String.toList_append, ← List.append_assoc]
  exact h _

theorem Harmless.behind (h : Harmless r) (ht : Guarding t) : Harmless (t ++ r) := by
  intro front _
  rw [String.toList_append, ← List.append_assoc]
  exact h _ (ht front)

theorem Harmless.operand (h : Harmless r) (ht : isGuard t = true) (l : String) :
    Harmless (l ++ t ++ r) :=
  h.behind ((guarding_of_isGuard ht).append_left l)

theorem harmless_join {sep texts} (hsep : isGuard sep = true) (h : ∀ t ∈ texts, Harmless t) :
    Harmless (join sep texts) := by
  induction texts with
  | nil => exact harmless_empty
  | cons t rest ih =>
    obtain ⟨ht, hrest⟩ := List.forall_mem_cons.1 h
    cases rest with
    | nil => exact ht
    | cons t' rest => exact (ih hrest).operand hsep t

/-! ## Names and numbers -/

theorem isIdentifierPart_of_mem {id} (h : isIdentifier id = true) :
    ∀ c ∈ id, isIdentifierPart c = true := by
  cases id with
  | nil => simp
  | cons first rest =>
    simp only [isIdentifier, Bool.and_eq_true, List.all_eq_true] at h
    refine List.forall_mem_cons.2 ⟨?_, h.2⟩
    rw [isIdentifierPart, h.1, Bool.true_or]

theorem endsSafely_of_isIdentifier {id} (h : isIdentifier id = true) : endsSafely id = true := by
  obtain rfl | ⟨front, c, rfl⟩ := List.eq_nil_or_concat' id
  · cases h
  · have hpart := isIdentifierPart_of_mem h c (by simp)
    rw [endsSafely, List.getLast?_concat, Option.any_some, bne_iff_ne]
    rintro rfl
    exact absurd hpart (by decide)

/-- A text without a blank reaches into the mark only with dots. -/
theorem harmless_of_solid {c} (hblank : ' ' ∉ t.toList) (hc : c ∈ t.toList) (hdot : c ≠ '.') :
    Harmless t := by
  intro front _ hmark
  rcases List.suffix_or_suffix_of_suffix hmark (List.suffix_append ..) with hwhole | hpart
  · exact hblank (hwhole.subset (by decide))
  · simp only [defaultMark, String.reduceToList, List.suffix_cons_iff, List.suffix_nil] at hpart
    rcases hpart with h | h | h | h | h | h | h <;> rw [h] at hblank hc <;> simp_all

theorem harmless_decimal (n : Nat) : Harmless (decimal n) := by
  obtain ⟨c, hc⟩ := List.exists_mem_of_ne_nil (decimal n).toList
    (by simp [decimal, Nat.toDigits_ne_nil])
  exact harmless_of_solid (fun h => absurd (isDigit_of_mem_decimal h) (by decide)) hc
    fun hdot => absurd (hdot ▸ isDigit_of_mem_decimal hc) (by decide)

/-! ## Quotes -/

theorem harmless_enclosed (mark : QuoteMark) (front : List Char) :
    Harmless (String.ofList (front ++ mark.chars)) :=
  harmless_ofList front (by cases mark <;> decide)

theorem endsSafely_plainQuote (ps : List Nat) : endsSafely [plainQuote ps] = true := by
  rw [plainQuote]
  split <;> decide

theorem harmless_quoted (ps : List Nat) : Harmless (quoted ps) :=
  harmless_ofList (plainQuote ps :: quotedBody ps) (endsSafely_plainQuote ps)

theorem harmless_sparselyQuoted (marks : List QuoteMark) (ps : List Nat) :
    Harmless (sparselyQuoted marks ps) :=
  harmless_enclosed _ _

theorem harmless_quotedBytes (os : List Nat) : Harmless (quotedBytes os) :=
  harmless_ofList _ (endsSafely_plainQuote os)

end Text

namespace Number.Binary64

open Text

theorem isDigit_of_mem_significantDigits {n c} (h : c ∈ significantDigits n) :
    isDigit c = true := by
  rw [significantDigits, List.mem_reverse] at h
  have hmem := List.mem_reverse.1 ((List.dropWhile_sublist _).subset h)
  exact isDigit_of_mem_decimal (n := n) (by rwa [decimal, String.toList_ofList])

theorem shortestWith_digits {num den lo hi d closed point count r}
    (h : shortestWith num den lo hi d closed point count = some r) :
    ∃ k, r.digits = significantDigits k := by
  simp only [shortestWith] at h
  repeat' split at h
  all_goals cases h
  all_goals exact ⟨_, rfl⟩

theorem isDigit_of_mem_shortest {m e c} (h : c ∈ (shortest m e).digits) : isDigit c = true := by
  simp only [shortest] at h
  generalize hfound : List.findSome? _ _ = found at h
  cases found with
  | none =>
    obtain rfl := List.mem_singleton.1 h
    rfl
  | some d =>
    obtain ⟨count, -, hd⟩ := List.exists_of_findSome?_eq_some hfound
    obtain ⟨k, hk⟩ := shortestWith_digits hd
    rw [Option.getD_some, hk] at h
    exact isDigit_of_mem_significantDigits h

theorem blank_notMem_exponentText (n : Int) : ' ' ∉ (exponentText n).toList := by
  have hdigits : ' ' ∉ Nat.toDigits 10 n.natAbs := fun h =>
    absurd (isDigit_of_mem_decimal (n := n.natAbs) (by rwa [decimal, String.toList_ofList]))
      (by decide)
  simp only [exponentText, String.toList_ofList]
  split <;> split <;> simp [hdigits]

theorem harmless_render_decimal (d : Decimal) (hd : ∀ c ∈ d.digits, isDigit c = true) :
    Harmless (d.render floatLiteral) := by
  have hblank : ' ' ∉ d.digits := fun h => absurd (hd _ h) (by decide)
  have htake : ∀ n, ' ' ∉ d.digits.take n := fun n h => hblank (List.mem_of_mem_take h)
  have hdrop : ∀ n, ' ' ∉ d.digits.drop n := fun n h => hblank (List.mem_of_mem_drop h)
  have hexponent := blank_notMem_exponentText (d.point - 1)
  rw [Decimal.render]
  split
  · refine harmless_of_solid (c := 'e') ?_ (by simp) (by decide)
    simp only
    have htail := hdrop 1
    split <;> simp_all
  · split
    · exact harmless_of_solid (c := '0') (by simp [hblank]) (by simp) (by decide)
    · simp only
      split
      · exact harmless_append _ (by decide)
      · next hlen =>
        obtain ⟨c, hc⟩ := List.exists_mem_of_length_pos (l := d.digits.drop d.point.toNat)
          (by rw [List.length_drop]; omega)
        have hdot : c ≠ '.' := fun h => absurd (h ▸ hd c (List.mem_of_mem_drop hc)) (by decide)
        exact harmless_of_solid (by simp [htake, hdrop]) (by simp [hc]) hdot

theorem harmless_render (x : Binary64) : Harmless (x.render floatLiteral) := by
  cases x with
  | infinite => exact harmless_of_last (by decide)
  | finite m e =>
    rw [render]
    split
    · exact harmless_of_last (by decide)
    · exact harmless_render_decimal _ fun c => isDigit_of_mem_shortest

end Number.Binary64

/-! ## Expressions -/

namespace Syntax

variable {sparse : Bool} {level : Nat} {t : String}

theorem harmless_formattedLiteral (parts : List (List Nat × Bool)) :
    Harmless (formattedLiteral parts) := by
  rw [formattedLiteral]
  split <;> exact harmless_enclosed _ _

theorem Constant.harmless_print {value : Constant} (h : value.print sparse = .ok t) :
    Harmless t := by
  cases value with
  | none =>
    cases h
    exact harmless_of_last (by decide)
  | bool b =>
    cases h
    cases b <;> exact harmless_of_last (by decide)
  | ellipsis =>
    cases h
    exact harmless_ellipsis
  | int n =>
    obtain ⟨-, rfl⟩ := print_int_ok h
    exact harmless_decimal n
  | float x =>
    cases h
    exact x.harmless_render
  | imaginary x =>
    cases h
    exact harmless_append _ (by decide)
  | str ps marked =>
    have hquoted : Harmless (if sparse then sparselyQuoted QuoteMark.all ps else quoted ps) := by
      split
      · exact harmless_sparselyQuoted _ ps
      · exact harmless_quoted ps
    cases h
    split
    · exact hquoted.behind (guarding_of_isGuard (by decide))
    · exact hquoted
  | bytes os =>
    cases h
    exact harmless_quotedBytes os

theorem harmless_bracketIf {own} (h : Harmless t) : Harmless (bracketIf level own t) := by
  rw [bracketIf]
  split
  · exact harmless_append _ (by decide)
  · exact h

theorem harmless_fieldPoints {text conversion spec ps}
    (h : fieldPoints text conversion spec = .ok ps) :
    Harmless (String.ofList (ps.map Char.ofNat)) := by
  rw [fieldPoints] at h
  split at h
  · cases h
  · cases h
    rw [List.map_append]
    exact harmless_ofList _ (by decide)

/-- Expressions whose text ends with a bracket, a quote or a constant. -/
def Expr.isClosed : Expr → Bool
  | .dict .. | .set .. | .listComp .. | .setComp .. | .dictComp .. | .generator .. | .call ..
  | .formatted .. | .joined .. | .constant .. | .subscript .. | .list .. => true
  | _ => false

/-- The name that the text of an expression ends with is a name, if it ends with one. -/
inductive Expr.EndsNamed : Expr → Prop
  | name {span id use} : isIdentifier id.toList = true → EndsNamed (.name span id use)
  | member {span value attr} :
      isIdentifier attr.toList = true → EndsNamed (.attribute span value attr)
  | closed {e} : e.isClosed = true → EndsNamed e
  | boolOp {span op values} : (∀ e ∈ values, EndsNamed e) → EndsNamed (.boolOp span op values)
  | tuple {span elts} : (∀ e ∈ elts, EndsNamed e) → EndsNamed (.tuple span elts)
  | compare {span left rest} :
      EndsNamed left → (∀ c ∈ rest, EndsNamed c.right) → EndsNamed (.compare span left rest)
  | named {span target value} : EndsNamed value → EndsNamed (.named span target value)
  | binOp {span left op right} : EndsNamed right → EndsNamed (.binOp span left op right)
  | unaryOp {span op operand} : EndsNamed operand → EndsNamed (.unaryOp span op operand)
  | lambda {span params body} : EndsNamed body → EndsNamed (.lambda span params body)
  | ifExp {span test body orelse} : EndsNamed orelse → EndsNamed (.ifExp span test body orelse)
  | await {span value} : EndsNamed value → EndsNamed (.await span value)
  | yield {span value} : (∀ e ∈ value, EndsNamed e) → EndsNamed (.yield span value)
  | yieldFrom {span value} : EndsNamed value → EndsNamed (.yieldFrom span value)
  | starred {span value} : EndsNamed value → EndsNamed (.starred span value)
  | slice {span lower upper step} : (∀ e ∈ upper, EndsNamed e) →
      (∀ e ∈ step, EndsNamed e) → EndsNamed (.slice span lower upper step)

theorem Expr.harmless_of_isClosed {e : Expr} (h : e.isClosed = true)
    (htext : e.print sparse level = .ok t) : Harmless t := by
  cases e <;> try simp only [Expr.print, bind_eq_ok, pure_eq_ok] at htext
  case dict | list =>
    obtain ⟨_, -, rfl⟩ := htext
    exact harmless_append _ (by decide)
  case set =>
    obtain ⟨_, -, rfl⟩ := htext
    split
    · exact harmless_of_last (by decide)
    · exact harmless_append _ (by decide)
  case listComp | setComp | generator | subscript =>
    obtain ⟨_, -, _, -, rfl⟩ := htext
    exact harmless_append _ (by decide)
  case dictComp | call =>
    obtain ⟨_, -, _, -, _, -, rfl⟩ := htext
    exact harmless_append _ (by decide)
  case formatted =>
    obtain ⟨_, -, _, -, _, hinner, rfl⟩ := htext
    exact harmless_fieldPoints hinner
  case joined =>
    have hguard : Guarding "f" := guarding_of_isGuard (by decide)
    split at htext <;> obtain ⟨_, -, ⟨⟩⟩ := bind_eq_ok.1 htext
    · exact (harmless_sparselyQuoted _ _).behind hguard
    · exact (harmless_formattedLiteral _).behind hguard
  case constant value => exact value.harmless_print htext
  all_goals cases h

theorem forall_of_forall₂ {α β : Type} {R : α → β → Prop} {P : β → Prop} {as bs}
    (h : List.Forall₂ R as bs) (hP : ∀ a ∈ as, ∀ b, R a b → P b) : ∀ b ∈ bs, P b := by
  induction h with
  | nil => exact nofun
  | cons hab _ ih =>
    obtain ⟨ha, has⟩ := List.forall_mem_cons.1 hP
    exact List.forall_mem_cons.2 ⟨ha _ hab, ih has⟩

theorem harmless_printComparisons {cs : List (Comparison Expr)} {l r}
    (hcs : ∀ c ∈ cs, ∀ {level t}, c.right.print sparse level = .ok t → Harmless t)
    (hl : Harmless l) (h : printComparisons sparse cs = .ok r) : Harmless (l ++ r) := by
  induction cs generalizing l r with
  | nil =>
    cases h
    simpa using hl
  | cons c cs ih =>
    obtain ⟨hc, hcs⟩ := List.forall_mem_cons.1 hcs
    simp only [printComparisons, bind_eq_ok, pure_eq_ok] at h
    obtain ⟨first, hfirst, more, hmore, rfl⟩ := h
    rw [printComparison] at hfirst
    obtain ⟨right, hright, ⟨⟩⟩ := bind_eq_ok.1 hfirst
    have hguard : isGuard (" " ++ c.op.text ++ " ") = true := by cases c.op <;> decide
    rw [← String.append_assoc]
    refine ih hcs ?_ hmore
    rw [← String.append_assoc]
    exact (hc hright).operand hguard l

theorem harmless_tupleItems {texts} (h : ∀ t ∈ texts, Harmless t) :
    Harmless (tupleItems texts) := by
  unfold tupleItems
  split
  · exact harmless_append _ (by decide)
  · exact harmless_join (by decide) h

/-- **No expression ends like a default value.** -/
theorem Expr.EndsNamed.harmless {e : Expr} (h : e.EndsNamed) {sparse level t}
    (htext : e.print sparse level = .ok t) : Harmless t := by
  induction h generalizing sparse level t <;>
    try simp only [Expr.print, bind_eq_ok, pure_eq_ok] at htext
  case closed h => exact Expr.harmless_of_isClosed h htext
  case name h =>
    subst htext
    exact harmless_of_last (endsSafely_of_isIdentifier h)
  case member h =>
    obtain ⟨v, -, rfl⟩ := htext
    exact harmless_append _ (endsSafely_of_isIdentifier h)
  case boolOp op values _ ih =>
    obtain ⟨texts, htexts, rfl⟩ := htext
    refine harmless_bracketIf (harmless_join (by cases op <;> decide) ?_)
    refine forall_of_forall₂ (printOperands_ok (Nat.min_le_left ..) htexts) fun e he t ht => ?_
    obtain ⟨_, -, -, ht⟩ := ht
    exact ih e he ht
  case tuple elts _ ih =>
    obtain ⟨texts, htexts, htext⟩ := htext
    have hall := forall_of_forall₂ (printAll_ok htexts) fun e he t ht => ih e he ht
    split at htext
    · cases htext
      exact harmless_of_last (by decide)
    · cases htext
      exact harmless_bracketIf (harmless_tupleItems hall)
  case compare ihl ih =>
    obtain ⟨l, hl, r, hr, rfl⟩ := htext
    exact harmless_bracketIf (harmless_printComparisons (fun c hc => ih c hc) (ihl hl) hr)
  case binOp op _ _ ih =>
    obtain ⟨l, -, r, hr, rfl⟩ := htext
    have hguard : Guarding (l ++ " " ++ op.text ++ " ") := by
      rw [String.append_assoc]
      exact (guarding_of_isGuard (by cases op <;> decide)).append_left _
    exact harmless_bracketIf ((ih hr).behind hguard)
  case unaryOp op _ _ ih =>
    obtain ⟨r, hr, rfl⟩ := htext
    exact harmless_bracketIf ((ih hr).behind (guarding_of_isGuard (by cases op <;> decide)))
  case named ih | lambda ih =>
    obtain ⟨_, -, r, hr, rfl⟩ := htext
    exact harmless_bracketIf ((ih hr).operand (by decide) _)
  case ifExp ih =>
    obtain ⟨_, -, _, -, r, hr, rfl⟩ := htext
    exact harmless_bracketIf ((ih hr).operand (by decide) _)
  case await ih | yieldFrom ih =>
    obtain ⟨r, hr, rfl⟩ := htext
    exact harmless_bracketIf ((ih hr).behind (guarding_of_isGuard (by decide)))
  case yield value _ ih =>
    cases value <;> simp only [Expr.print, bind_eq_ok, pure_eq_ok] at htext
    case none =>
      subst htext
      exact harmless_bracketIf (harmless_of_last (by decide))
    case some =>
      obtain ⟨r, hr, rfl⟩ := htext
      exact harmless_bracketIf ((ih _ rfl hr).behind (guarding_of_isGuard (by decide)))
  case starred ih =>
    obtain ⟨r, hr, rfl⟩ := htext
    exact (ih hr).behind (guarding_of_isGuard (by decide))
  case slice ihu ihs =>
    obtain ⟨l, -, u, hu, s, hs, rfl⟩ := htext
    rcases printOption_ok hs with ⟨-, rfl⟩ | ⟨e, r, hstep, rfl, hr⟩
    · rw [Option.elim_none, String.append_empty]
      rcases printOption_ok hu with ⟨-, rfl⟩ | ⟨e, r, hupper, rfl, hr⟩
      · exact harmless_empty.operand (by decide) _
      · exact (ihu e hupper hr).operand (by decide) _
    · rw [Option.elim_some, ← String.append_assoc]
      exact (ihs e hstep hr).operand (by decide) _

end Syntax

end TypeStub
