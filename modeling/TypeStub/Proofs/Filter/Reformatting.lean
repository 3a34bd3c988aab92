import TypeStub.Proofs.Filter.Acceptance
import TypeStub.Proofs.Filter.Reindenting
import TypeStub.Proofs.Grammar.Formed
import TypeStub.Proofs.Grammar.Rendering
/-!
# Canonical texts of filters

The canonical text of a filter is a filter again, with the same expression but for positions, if
there is room for its brackets (`read_shown`). It can have more brackets than the filter was written
with: `nestedText` is a family of filters whose canonical texts nest twice as deep, and the lexer
refuses some of these (`read_shown_too_deep`).
-/

namespace TypeStub

namespace Syntax

open Text

/-! ## How deep brackets nest -/

/-- Behind the open brackets a text can be taken apart into tokens. -/
def Lexable (bs text : List Char) : Prop :=
  ∃ ks, Lexes true bs text ks

section Nesting

variable {bs cs r : List Char} {n m : Nat} {text text' : List Char}

theorem lexable_blank : Lexable bs (' ' :: r) ↔ Lexable bs r := by
  constructor
  · rintro ⟨ks, h⟩
    exact ⟨ks, h.of_space (by decide)⟩
  · rintro ⟨ks, h⟩
    exact ⟨ks, .blank (by decide) h⟩

theorem lexable_token {c} (hc : isGap c = false) : Lexable bs (c :: r) ↔
      ∃ t, scanToken true bs (c :: r) = some t ∧ Lexable t.brackets t.rest := by
  constructor
  · rintro ⟨ks, h⟩
    cases h with
    | blank hblank _ => simp [isGap, hblank] at hc
    | newline | join | comment => cases hc
    | token hscan h => exact ⟨_, hscan, _, h⟩
  · rintro ⟨t, hscan, ks, h⟩
    exact ⟨_, .token hscan h⟩

theorem lexable_open :
    Lexable bs ('(' :: r) ↔ bs.length + 1 ≤ maxBrackets ∧ Lexable ('(' :: bs) r := by
  have hscan : scanToken true bs ('(' :: r)
      = (if bs.length ≥ maxBrackets then none else some ('(' :: bs)).map fun bs' =>
        ⟨.op "(", ['('], r, bs'⟩ :=
    scanToken_operator (show "(" ∈ operators by decide)
      (endsOperator_of_extensions (by decide) (by decide) r)
  rw [lexable_token (by decide), hscan]
  by_cases hfull : bs.length ≥ maxBrackets
  · rw [if_pos hfull]
    constructor
    · rintro ⟨t, ht, -⟩
      cases ht
    · rintro ⟨hroom, -⟩
      omega
  · rw [if_neg hfull]
    constructor
    · rintro ⟨t, ht, h⟩
      cases ht
      exact ⟨by omega, h⟩
    · rintro ⟨-, h⟩
      exact ⟨_, rfl, h⟩

theorem lexable_close : Lexable ('(' :: bs) (')' :: r) ↔ Lexable bs r := by
  have hscan : scanToken true ('(' :: bs) (')' :: r) = some ⟨.op ")", [')'], r, bs⟩ :=
    scanToken_operator (show ")" ∈ operators by decide)
      (endsOperator_of_extensions (by decide) (by decide) r)
  rw [lexable_token (by decide), hscan]
  simp

/-- The brackets of a text nest `n` deep: there must be room for as many, and there is no other
obstacle. -/
def Nests (n : Nat) (text : List Char) : Prop :=
  ∀ bs rest : List Char, bs.length ≤ maxBrackets → EndsExpr false rest →
    (Lexable bs (text ++ rest) ↔ bs.length + n ≤ maxBrackets ∧ Lexable bs rest)

theorem nests_token (hhead : ∃ c r, text = c :: r ∧ isGap c = false)
    (h : ∀ bs rest, EndsWord rest →
      ∃ kind, scanToken true bs (text ++ rest) = some ⟨kind, text, rest,
      bs⟩) : Nests 0 text := by
  intro bs rest hbs hrest
  obtain ⟨kind, hscan⟩ := h bs rest hrest.word
  obtain ⟨c, r, rfl, hc⟩ := hhead
  rw [List.cons_append] at hscan ⊢
  rw [lexable_token hc, hscan]
  simp [hbs]

theorem Nests.seq (h : Nests n text) (h' : Nests m text')
    (hends : ∀ rest, EndsExpr false (text' ++ rest)) : Nests (max n m) (text ++ text') := by
  intro bs rest hbs hrest
  rw [List.append_assoc, h bs _ hbs (hends rest), h' bs rest hbs hrest, ← and_assoc]
  exact and_congr_left' (by omega)

theorem Nests.blank (h : Nests n text) : Nests n (' ' :: text) :=
  fun bs rest hbs hrest => lexable_blank.trans (h bs rest hbs hrest)

theorem Nests.brackets (h : Nests n text) : Nests (n + 1) ('(' :: (text ++ [')'])) := by
  intro bs rest hbs hrest
  have hinner := h ('(' :: bs) (')' :: rest)
  rw [List.length_cons, lexable_close] at hinner
  have hclose : EndsExpr false (')' :: rest) := endsExpr_of_mem (by decide) rest
  rw [List.cons_append, List.append_assoc, List.singleton_append, lexable_open]
  constructor
  · rintro ⟨hroom, h⟩
    obtain ⟨hdeep, hrest⟩ := (hinner hroom hclose).1 h
    exact ⟨by omega, hrest⟩
  · rintro ⟨hdeep, hrest⟩
    exact ⟨by omega, (hinner (by omega) hclose).2 ⟨by omega, hrest⟩⟩

theorem Nests.bracketIf {level own : Nat} {text : String} (h : Nests n text.toList) :
    Nests (n + if level > own then 1 else 0) (bracketIf level own text).toList := by
  unfold Syntax.bracketIf
  split
  · rw [String.toList_append, String.toList_append]
    exact h.brackets
  · exact h

theorem nests_keyword {word : String} (h : word ∈ keywords) : Nests 0 word.toList :=
  nests_token (keyword_head h) fun _ _ hrest => ⟨_, scanToken_keyword h hrest⟩

theorem nests_name {id : String} (h : isName id = true) : Nests 0 id.toList :=
  nests_token (begins_name h).head fun _ _ hrest => ⟨_, scanToken_name h hrest⟩

theorem nests_quoted {ps} (h : ∀ n ∈ ps, n < 0x110000) : Nests 0 (quoted ps).toList := by
  refine nests_token ⟨plainQuote ps, quotedBody ps ++ [plainQuote ps], by simp [quoted], ?_⟩
    fun _ _ hrest => ⟨_, scanToken_quoted h false hrest⟩
  rcases isQuote_plainQuote ps with hq | hq <;> (rw [hq]; decide)

end Nesting

mutual

/-- How deep the brackets nest in the canonical text of a formula at a place of the given level. -/
def Expr.nesting (level : Nat) : Expr → Nat
  | .call .. => 1
  | .unaryOp _ op operand => operand.nesting op.level + if level > op.level then 1 else 0
  | .boolOp _ op values =>
    nestingAll (Level.next op.level) values + if level > op.level then 1 else 0
  | _ => 0

def nestingAll (level : Nat) : List Expr → Nat
  | [] => 0
  | e :: rest => max (e.nesting level) (nestingAll (Level.next level) rest)

end

end Syntax

namespace Filter

open Syntax Text

/-- The text of a formula exists, and its brackets nest as deep as those of the formula. -/
def PrintsNested (e : Expr) : Prop :=
  ∀ level, ∃ text, e.print false level = .ok text ∧ Nests (e.nesting level) text.toList

section Printing

variable {e : Expr} {es : List Expr} {span : Span}

theorem printOperands_nested (op : BoolOp) (hes : es ≠ []) (h : ∀ e ∈ es, PrintsNested e)
    (level : Nat) : ∃ text texts, printOperands false level es = .ok (text :: texts) ∧
      Nests (nestingAll level es) (join (" " ++ op.text ++ " ") (text :: texts)).toList := by
  have hop : Nests 0 op.text.toList := nests_keyword (by cases op <;> decide)
  have hblank (r : List Char) : EndsExpr false (' ' :: r) := endsExpr_of_mem (by decide) r
  induction es generalizing level with
  | nil => exact absurd rfl hes
  | cons e rest ih =>
    obtain ⟨he, hrest⟩ := List.forall_mem_cons.1 h
    obtain ⟨text, htext, hnests⟩ := he level
    cases rest with
    | nil =>
      refine ⟨text, [], by rw [printOperands, htext]; rfl, ?_⟩
      simpa [nestingAll, join] using hnests
    | cons e' rest =>
      obtain ⟨text', texts, htexts, hmore⟩ := ih (by simp) hrest (Level.next level)
      refine ⟨text, text' :: texts, ?_, ?_⟩
      · rw [printOperands, htext]
        change (printOperands false (Level.next level) (e' :: rest) >>= _) = _
        rw [htexts]
        rfl
      · have hchain := hnests.seq (hop.seq hmore.blank fun _ => hblank _).blank fun _ => hblank _
        simpa [join, nestingAll] using hchain

theorem printsNested_boolOp {op} (hes : es ≠ []) (h : ∀ e ∈ es, PrintsNested e) :
    PrintsNested (.boolOp span op es) := by
  intro level
  obtain ⟨text, texts, htexts, hnests⟩ := printOperands_nested op hes h (Level.next op.level)
  exact ⟨_, by rw [Expr.print, htexts]; rfl, hnests.bracketIf⟩

theorem printsNested_not (h : PrintsNested e) : PrintsNested (.unaryOp span .not e) := by
  intro level
  obtain ⟨text, htext, hnests⟩ := h UnaryOp.not.level
  have hnot : Nests (e.nesting UnaryOp.not.level) ("not " ++ text).toList := by
    have hword : Nests 0 "not".toList := nests_keyword (by decide)
    simpa using hword.seq hnests.blank fun _ => endsExpr_of_mem (by decide) _
  exact ⟨_, by rw [Expr.print, htext]; rfl, hnot.bracketIf⟩

theorem isName_of_subject {id subject} (h : Subject.ofFunctionName? id = some subject) :
    isName id = true := by
  have hall : functionNames.all isName = true := by decide
  exact List.all_eq_true.1 hall id (mem_functionNames.2 (by simp [h]))

theorem printsNested_asks {inner outer id pattern} (hid : isName id = true)
    (hpattern : ∀ n ∈ pattern, n < 0x110000) :
    PrintsNested (.call span (.name inner id .load) [.constant outer (.str pattern false)] []) := by
  intro level
  refine ⟨_, by simp only [Expr.print, printAll, printKeywords, Constant.print]; rfl, ?_⟩
  have hcall := (nests_name hid).seq (nests_quoted hpattern).brackets
    fun _ => endsExpr_of_mem (by decide) _
  simpa [join, Expr.nesting] using hcall

end Printing

theorem formed_of_forall₂ {P : Expr → Prop} {es} {cs : List Condition}
    (h : List.Forall₂ (fun e _ => e.Formed → P e) es cs) (hes : AllFormed es) :
    ∀ e ∈ es, P e := by
  intro e he
  exact ((List.forall₂_and_left es cs).1 (h.imp fun _ _ he => ⟨he, trivial⟩)).1 e he
    (allFormed_iff.1 hes e he)

theorem printsNested_closed : Condition.Closed fun e _ => e.Formed → PrintsNested e where
  const {_ value} _ level := by
    refine ⟨_, by rw [Expr.print]; rfl, ?_⟩
    cases value <;> exact nests_keyword (by decide)
  asks hsubject hformed := printsNested_asks (isName_of_subject hsubject) hformed.1
  not h hformed := printsNested_not (h hformed)
  and h hformed := printsNested_boolOp (by rintro rfl; cases hformed.1)
    (formed_of_forall₂ h hformed.2)
  or h hformed := printsNested_boolOp (by rintro rfl; cases hformed.1)
    (formed_of_forall₂ h hformed.2)

theorem readsBack_closed (d : Dialect) : Condition.Closed fun e _ =>
    e.Formed → e.ReadsBack d where
  const _ := readsBack_constant rfl
  asks hsubject hformed := readsBack_call (readsBack_name (isName_of_subject hsubject))
    (List.forall_mem_singleton.2 (readsBack_str hformed.1)) (by simp) (by simp)
  not h hformed := readsBack_unaryOp (h hformed)
  and h hformed := readsBack_boolOp hformed.1 (formed_of_forall₂ h hformed.2)
  or h hformed := readsBack_boolOp hformed.1 (formed_of_forall₂ h hformed.2)

/-! ## Reading a canonical text again -/

theorem formed_of_parseExpression {d text e} (h : parseExpression d text = some e) : e.Formed := by
  obtain ⟨ts, ends, m, n, htokens, hspells, hts, -⟩ := parseExpression_reads h
  refine hspells.formed (fun t ht c hc => ?_) (.expr e) (List.mem_singleton_self _)
  rcases tokenize_sits htokens t (by simp [ht]) with hlayout | hlexeme
  · rw [hts t ht] at hlayout
    cases hlayout
  · exact hlexeme.number c hc

section Brackets

variable {text : String} {Q : Expr → Prop} {n : Nat}

theorem parseExpression_of_nests (h : Legible dialect Level.test false text.toList Q)
    (hnests : Nests n text.toList) (hroom : n < maxBrackets) :
    ∃ e, parseExpression dialect ('(' :: (text.toList ++ [')'])) = some e ∧ Q e := by
  have hgroup : Legible dialect Level.test false ('(' :: (text.toList ++ [')'])) Q := by
    have hatom := h.group (Nat.le_refl Level.test) (by decide)
    rw [String.toList_append, String.toList_append] at hatom
    exact hatom.place (Nat.le_refl Level.test) (by decide)
  have hclean := (hgroup.goes []).clean
  obtain ⟨ks, hks⟩ : Lexable ['('] (text.toList ++ [')']) := by
    refine (hnests ['('] [')'] (by decide) (endsExpr_of_mem (by decide) [])).2 ⟨?_, ?_⟩
    · rw [List.length_singleton]
      omega
    · exact lexable_close.2 ⟨[], .stop⟩
  obtain ⟨tokens, htokens, -⟩ := tokenize_of_lexes (d := dialect) rfl (by decide)
    (fun hmem => (hclean _ (List.mem_cons_of_mem _ hmem)).2 rfl)
    (fun hmem => (hclean _ (List.mem_cons_of_mem _ hmem)).1 rfl) hks
  exact parseExpression_of_tokenize hgroup htokens

theorem nests_of_parseExpression (hnests : Nests n text.toList) (hsharp : '#' ∉ text.toList)
    (hreturn : '\r' ∉ text.toList) {e}
    (h : parseExpression dialect ('(' :: (text.toList ++ [')'])) = some e) : n < maxBrackets := by
  obtain ⟨ts, ends, m, k, htokens, -, hts, hends, hm⟩ := parseExpression_reads h
  have hline : '#' ∉ lastLine text.toList := fun hmem =>
    hsharp (List.mem_reverse.1 ((List.takeWhile_sublist _).subset (List.mem_reverse.1 hmem)))
  obtain ⟨ks, -, hks⟩ := lexes_of_tokenize rfl (by decide) (by simp [hreturn])
    (unfinished_of_lastLine hline) htokens (oneLine_of_ends hts hends hm)
  have hdeep :=
    ((hnests ['('] [')'] (by decide) (endsExpr_of_mem (by decide) [])).1 ⟨ks, hks⟩).1
  rw [List.length_singleton] at hdeep
  omega

end Brackets

/-! ## Filters of any depth -/

def nestedText : Nat → String
  | 0 => "True and True"
  | n + 1 => "True and " ++ ("not " ++ ("(" ++ nestedText n ++ ")"))

/-- The same with the brackets of the canonical text: those around `not` are of no use. -/
def nestedShown : Nat → String
  | 0 => "True and True"
  | n + 1 => "True and " ++ ("(" ++ ("not " ++ ("(" ++ nestedShown n ++ ")")) ++ ")")

def nestedExpr : Nat → Expr
  | 0 => .boolOp default .and [.constant default (.bool true), .constant default (.bool true)]
  | n + 1 =>
    .boolOp default .and [.constant default (.bool true), .unaryOp default .not (nestedExpr n)]

theorem nestedExpr_isFormula (n : Nat) : IsFormula (nestedExpr n) := by
  induction n with
  | zero => exact .chain (by simp [IsFormula.const])
  | succ n ih => exact .chain (by simp [IsFormula.const, ih.not])

theorem nestedExpr_formed (n : Nat) : (nestedExpr n).Formed := by
  induction n with
  | zero => simp [nestedExpr, Expr.Formed, AllFormed]
  | succ n ih => simp [nestedExpr, Expr.Formed, AllFormed, ih]

theorem nesting_nestedExpr (n level : Nat) :
    (nestedExpr n).nesting level = 2 * n + if level > Level.and then 1 else 0 := by
  induction n generalizing level with
  | zero => rfl
  | succ n ih =>
    have hinner : (nestedExpr n).nesting UnaryOp.not.level = 2 * n + 1 := ih _
    have hlevel : UnaryOp.not.level < Level.next (Level.next Level.and) := by decide
    simp [nestedExpr, Expr.nesting, nestingAll, BoolOp.level, hinner, hlevel]
    omega

theorem print_nestedExpr (n level : Nat) :
    (nestedExpr n).print false level = .ok (bracketIf level Level.and (nestedShown n)) := by
  induction n generalizing level with
  | zero => rfl
  | succ n ih =>
    have hinner :
      (nestedExpr n).print false UnaryOp.not.level = .ok ("(" ++ nestedShown n ++ ")") :=
      ih _
    simp only [nestedExpr, Expr.print, printOperands, Constant.print, hinner]
    rfl

theorem nestedShown_plain (n : Nat) : '#' ∉ (nestedShown n).toList ∧
    '\r' ∉ (nestedShown n).toList := by
  induction n with
  | zero => decide
  | succ n ih => simp [nestedShown, ih]

theorem legible_true {level} (h : Level.test ≤ level ∧ level ≤ Level.atom) :
    Legible dialect level false "True".toList (Expr.constant default (.bool true)).SameAs :=
  (legible_keyword (by decide) rfl default).place h.1 h.2

theorem legible_and {text : String} {e : Expr}
    (h : Legible dialect Level.not false text.toList e.SameAs) :
    Legible dialect Level.and false ("True and " ++ text).toList
      (Expr.boolOp default .and [.constant default (.bool true), e]).SameAs := by
  have htrue := legible_true (show Level.test ≤ BoolOp.and.level + 1 ∧ _ by decide)
  refine (legible_boolOp htrue (.cons h .nil) (by simp)).imp ?_
  rintro _ ⟨_, _, rfl, hall⟩
  simp only [Expr.SameAs, Expr.unplaced, sameAs_all hall]

theorem legible_not {text : String} {e : Expr}
    (h : Legible dialect Level.not false text.toList e.SameAs) :
    Legible dialect Level.not false ("not " ++ text).toList
      (Expr.unaryOp default .not e).SameAs := by
  have htoList : ("not " ++ text).toList = "not".toList ++ ' ' :: text.toList := by simp
  rw [htoList]
  refine h.not.imp ?_
  rintro _ ⟨_, _, rfl, hv⟩
  simp only [Expr.SameAs, Expr.unplaced] at hv ⊢
  rw [hv]

theorem legible_nestedText (n : Nat) :
    Legible dialect Level.and false (nestedText n).toList (nestedExpr n).SameAs := by
  induction n with
  | zero => exact legible_and (legible_true (by decide))
  | succ n ih =>
    have hgroup : Legible dialect Level.not false ("(" ++ nestedText n ++ ")").toList
        (nestedExpr n).SameAs :=
      (ih.group (by decide) (by decide)).place (by decide) (by decide)
    exact legible_and (legible_not hgroup)

theorem nests_nestedText (n : Nat) : Nests n (nestedText n).toList := by
  have hblank (r : List Char) : EndsExpr false (' ' :: r) := endsExpr_of_mem (by decide) r
  have htrue : Nests 0 "True".toList := nests_keyword (by decide)
  have hnot : Nests 0 "not".toList := nests_keyword (by decide)
  have hand {m text} (h : Nests m text) : Nests m ("True and ".toList ++ text) := by
    have hword : Nests 0 "and".toList := nests_keyword (by decide)
    simpa using htrue.seq (hword.seq h.blank fun _ => hblank _).blank fun _ => hblank _
  induction n with
  | zero => exact hand htrue
  | succ n ih =>
    rw [nestedText, String.toList_append]
    refine hand ?_
    simpa using hnot.seq ih.brackets.blank fun _ => hblank _

/-- Such a filter is read as long as there is room for its own brackets. -/
theorem read_nestedText {n : Nat} (h : n < maxBrackets) :
    ∃ f, read (.expr (nestedText n)) = .ok f ∧ f.expr.unplaced = (nestedExpr n).unplaced := by
  have hlegible := (legible_nestedText n).loosen (Nat.le_refl Level.test) (by decide) (by decide)
  obtain ⟨e, hparse, he⟩ := parseExpression_of_nests hlegible (nests_nestedText n) h
  obtain ⟨c, hc⟩ := Option.isSome_iff_exists.1 (isSome_ofExpr?_iff.2 (nestedExpr_isFormula n))
  exact ⟨⟨_, e, c⟩, read_eq_ok.2 ⟨rfl, hparse, Condition.ofExpr?_unplaced hc he⟩, he⟩

/-- Its canonical text is read only if there is room for twice as many. -/
theorem lt_of_read_nestedShown {n f} (h : read (.expr (nestedShown n)) = .ok f) :
    2 * n < maxBrackets := by
  obtain ⟨-, hparse, -⟩ := read_eq_ok.1 h
  obtain ⟨c, hc⟩ := Option.isSome_iff_exists.1 (isSome_ofExpr?_iff.2 (nestedExpr_isFormula n))
  obtain ⟨text, htext, hnests⟩ :=
    printsNested_closed.ofExpr? (nestedExpr n) hc (nestedExpr_formed n) Level.test
  rw [print_nestedExpr] at htext
  cases htext
  rw [nesting_nestedExpr] at hnests
  exact nests_of_parseExpression hnests (nestedShown_plain n).1 (nestedShown_plain n).2 hparse

/-! ## Main results -/

/-- The canonical text of a filter exists. If there is room for its brackets, it is a filter with
the same expression but for positions, which matches in the same contexts and has the same canonical
text. -/
theorem read_shown {raw f} (h : read raw = .ok f) :
    ∃ text, f.shown = .ok text ∧ (f.expr.nesting Level.test < maxBrackets →
      ∃ f', read (.expr text) = .ok f' ∧ f'.expr.unplaced = f.expr.unplaced ∧
        (∀ ctx, f'.isMatch ctx = f.isMatch ctx) ∧ f'.shown = .ok text) := by
  obtain ⟨-, hparse, hcondition⟩ := read_eq_ok.1 h
  have hformed := formed_of_parseExpression hparse
  obtain ⟨text, htext, hnests⟩ :=
    printsNested_closed.ofExpr? f.expr hcondition hformed Level.test
  refine ⟨text, htext, fun hroom => ?_⟩
  have hlegible :=
    ((readsBack_closed dialect).ofExpr? f.expr hcondition hformed).at htext (by decide)
  obtain ⟨e, hparse', he⟩ := parseExpression_of_nests hlegible hnests hroom
  refine ⟨⟨.expr text, e, f.condition⟩, read_eq_ok.2 ⟨rfl, hparse', ?_⟩, he, fun _ =>
    rfl, ?_⟩
  · exact Condition.ofExpr?_unplaced hcondition he
  · rw [← htext]
    exact render_eq_of_unplaced he

def denialText : String := "not(name_is(\"a\")and node_is(r'b'))"

def denialShown : String := "not (name_is('a') and node_is('b'))"

theorem read_shown_on_sample : ∃ f f', read (.expr denialText) = .ok f ∧
    f.shown = .ok denialShown ∧
      read (.expr denialShown) = .ok f' ∧ f'.expr.unplaced = f.expr.unplaced ∧
      (∀ ctx, f'.isMatch ctx = f.isMatch ctx) ∧ f'.shown = .ok denialShown := by
  have hsample : (read (.expr denialText)).toOption.any (fun f =>
      f.shown.toOption == some denialShown && decide (f.expr.nesting Level.test < maxBrackets))
      = true := by
    decide +kernel
  cases hread : read (.expr denialText) with
  | error cause => simp [hread, Except.toOption] at hsample
  | ok f =>
    obtain ⟨text, htext, hagain⟩ := read_shown hread
    simp only [hread, htext, Except.toOption, Option.any_some, Bool.and_eq_true, beq_iff_eq,
      Option.some.injEq, decide_eq_true_eq] at hsample
    obtain ⟨rfl, hroom⟩ := hsample
    obtain ⟨f', hf'⟩ := hagain hroom
    exact ⟨f, f', rfl, htext, hf'⟩

/-- **Too many brackets in a canonical text**: a filter that is read, but its canonical text is not.
-/
theorem read_shown_too_deep :
    ∃ f, read (.expr (nestedText 100)) = .ok f ∧ f.shown = .ok (nestedShown 100) ∧
      ∀ f', read (.expr (nestedShown 100)) ≠ .ok f' := by
  obtain ⟨f, hf, hexpr⟩ := read_nestedText (show 100 < maxBrackets by decide)
  refine ⟨f, hf, ?_, fun f' hf' => absurd (lt_of_read_nestedShown hf') (by decide)⟩
  rw [shown, render_eq_of_unplaced hexpr]
  exact print_nestedExpr 100 Level.test

end Filter

end TypeStub
