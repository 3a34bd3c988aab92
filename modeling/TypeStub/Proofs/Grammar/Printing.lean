import Mathlib.Data.List.Forall2
import TypeStub.Proofs.Grammar.Soundness
import TypeStub.Proofs.Grammar.Transport
import TypeStub.Proofs.Lexing.Writing
import TypeStub.Proofs.Results
/-!
# Printed expressions

The canonical text of an expression is read as the expression.
-/

namespace TypeStub.Syntax

open TypeStub.Text
/-! ## Texts that are read as expressions -/

/-- The first character of an expression: it is part of a token, and makes no longer operator of
what may stand in front of it. -/
def Begins (text : List Char) : Prop :=
  ∃ c r, text = c :: r ∧ isGap c = false ∧ c ≠ '=' ∧ c ≠ '>' ∧ c ≠ '*'

/-- The tokens are a phrase of the form for an expression with `Q`. -/
def IsPhrase (d : Dialect) (f : Form) (Q : Expr → Prop) (ts : List Token) : Prop :=
  ∃ e, Phrase d f ts [.expr e] ∧ Q e

/-- The text can stand where an expression of the level is expected, and is read as one with `Q`
there. A point may follow if `point`. -/
structure Legible (d : Dialect) (level : Nat) (point : Bool) (text : List Char)
    (Q : Expr → Prop) : Prop where
  begins : Begins text
  goes : ∀ bs, Goes bs text bs (EndsExpr point) (IsPhrase d (.expr level) Q)

theorem endsExpr_cons {c point} (h : isNameChar c = false ∧ c ≠ '\'' ∧
    c ≠ '"' ∧ c ≠ '=')
    (hpoint : c = '.' → point = true) (rest : List Char) : EndsExpr point (c :: rest) := by
  intro c' hc'
  obtain rfl : c = c' := Option.some.inj hc'
  exact ⟨h.1, h.2.1, h.2.2.1, h.2.2.2, hpoint⟩

/-- The characters that end an expression in the texts that are written here. -/
theorem endsExpr_of_mem {c} (h : c ∈ [' ', ',', ':', '(', ')', '[', ']', '\x7b', '\x7d']) {point}
    (rest : List Char) : EndsExpr point (c :: rest) := by
  have hall : [' ', ',', ':', '(', ')', '[', ']', '\x7b', '\x7d'].all (fun c => decide
      ((isNameChar c = false ∧ c ≠ '\'' ∧ c ≠ '"' ∧ c ≠ '=') ∧ c ≠ '.'))
      = true := by decide
  obtain ⟨hc, hpoint⟩ := of_decide_eq_true (List.all_eq_true.1 hall c h)
  exact endsExpr_cons hc (fun heq => absurd heq hpoint) rest

theorem endsExpr_nil {point} : EndsExpr point [] := by
  intro c hc
  cases hc

/-- The text can stand in an expression, whatever brackets are open, and is read as tokens with `P`
there. A point may follow if `point`. -/
def GoesIn (point : Bool) (text : List Char) (P : List Token → Prop) : Prop :=
  ∀ bs, Goes bs text bs (EndsExpr point) P

theorem GoesIn.imp {point text} {P P' : List Token → Prop} (h : GoesIn point text P)
    (hP : ∀ ts, P ts → P' ts) : GoesIn point text P' :=
  fun bs => (h bs).imp hP

/-- A closing bracket ends every expression, and anything may stand behind it. -/
theorem goes_enclosed {opening closing} (hpair : IsPair opening closing) {text point point'}
    {P : List Token → Prop} (h : GoesIn point text P) :
    GoesIn point' (opening.toList ++ text ++ closing.toList) (InBrackets opening closing P) := by
  intro bs
  refine ((h _).inBrackets hpair fun rest => ?_).narrow fun _ _ => trivial
  rcases hpair.cases with ⟨-, rfl⟩ | ⟨-, rfl⟩ | ⟨-, rfl⟩ <;> exact endsExpr_of_mem
    (by decide) rest

namespace Legible

variable {d : Dialect} {level : Nat} {point : Bool} {text : List Char} {Q : Expr → Prop}

theorem imp {Q' : Expr → Prop} (h : Legible d level point text Q) (hQ : ∀ e, Q e → Q' e) :
    Legible d level point text Q' where
  begins := h.begins
  goes bs := (h.goes bs).imp fun _ ⟨e, hp, he⟩ => ⟨e, hp, hQ e he⟩

theorem blunt (h : Legible d level point text Q) : Legible d level false text Q where
  begins := h.begins
  goes bs := (h.goes bs).narrow fun _ hrest => hrest.mono

/-- What can stand at a level can stand where a looser one is expected. -/
theorem loosen {loose} (h : Legible d level point text Q) (htest : Level.test ≤ loose)
    (hloose : loose ≤ level) (hatom : level ≤ Level.atom) : Legible d loose point text Q where
  begins := h.begins
  goes bs := (h.goes bs).imp fun _ ⟨e, hp, he⟩ => by
    obtain ⟨j, rfl⟩ := Nat.exists_eq_add_of_le hloose
    exact ⟨e, .loosen htest j hatom hp, he⟩

theorem enclosed {opening text closing} (hpair : IsPair opening closing) {P : List Token → Prop}
    (h : GoesIn point text.toList P)
    (hatom : ∀ {o us c}, o.kind = .op opening → P us → c.kind = .op closing →
      IsPhrase d .atom Q (o :: (us ++ [c]))) :
    Legible d Level.atom true (opening ++ text ++ closing).toList Q where
  begins := by
    rw [String.toList_append, String.toList_append]
    rcases hpair.cases with ⟨rfl, -⟩ | ⟨rfl, -⟩ | ⟨rfl, -⟩ <;>
      exact ⟨_, _, rfl, by decide, by decide, by decide, by decide⟩
  goes := by
    rw [String.toList_append, String.toList_append]
    refine (goes_enclosed hpair h).imp ?_
    rintro _ ⟨o, us, c, rfl, ho, hus, hc⟩
    obtain ⟨e, hp, he⟩ := hatom ho hus hc
    exact ⟨e, .atom hp, he⟩

theorem group {text} (h : Legible d level point text.toList Q) (htest : Level.test ≤ level)
    (hatom : level ≤ Level.atom) : Legible d Level.atom true ("(" ++ text ++ ")").toList Q :=
  enclosed isPair_round (h.loosen (Nat.le_refl _) htest hatom).goes
    fun ho ⟨e, hp, he⟩ hc => ⟨e, .group (.inl rfl) ho (.unnamed hp) hc, he⟩

theorem token {kind} (hbegins : Begins text)
    (hgoes : GoesIn point text (IsToken kind))
    (hphrase : ∀ t : Token, t.kind = kind → ∃ e, Phrase d .atom [t] [.expr e] ∧ Q e) :
    Legible d Level.atom point text Q where
  begins := hbegins
  goes := hgoes.imp fun _ ⟨t, hts, ht⟩ => by
    subst hts
    obtain ⟨e, hp, he⟩ := hphrase t ht
    exact ⟨e, .atom hp, he⟩

end Legible

/-! ## Names and constants -/

section Tokens

variable {d : Dialect}

/-- The same expression but for positions. -/
def Expr.SameAs (e e' : Expr) : Prop :=
  e'.unplaced = e.unplaced

theorem begins_of_nameChar {text c} (hc : text.head? = some c) (hname : isNameChar c = true) :
    Begins text := by
  obtain ⟨r, rfl⟩ := List.head?_eq_some_iff.1 hc
  refine ⟨c, r, rfl, isGap_of_isNameChar hname, ?_, ?_, ?_⟩ <;>
    (rintro rfl; revert hname; decide)

theorem begins_name {id} (h : isName id = true) : Begins id.toList := by
  obtain ⟨c, hc, -, hchars⟩ := isName_chars h
  exact begins_of_nameChar hc (hchars c (List.mem_of_mem_head? hc))

theorem legible_name {id} (h : isName id = true) (span : Span) :
    Legible d Level.atom true id.toList (Expr.name span id .load).SameAs :=
  .token (begins_name h) (fun bs => (goes_name h bs).narrow fun _ => EndsExpr.word)
    fun t ht => ⟨.name t.span id .load, .name ht, rfl⟩

theorem legible_keyword {word} (hword : word ∈ ["None", "True", "False"]) {c}
    (hc : keywordConstant? word = some c) (span : Span) :
    Legible d Level.atom true word.toList (Expr.constant span c).SameAs := by
  have hall : ∀ word ∈ ["None", "True", "False"], word ∈ keywords ∧
      (TokenKind.keyword word).isSteady = true ∧
      word.toList.head?.any isNameChar = true := by decide
  obtain ⟨hmem, hsteady, hfirst⟩ := hall word hword
  obtain ⟨c', hc', hname⟩ := (Option.any_eq_true _ _).1 hfirst
  refine .token (begins_of_nameChar hc' hname) (fun bs => ?_)
    fun t ht => ⟨.constant t.span c, .constant ht hc, rfl⟩
  exact (goes_keyword hmem hsteady bs).narrow fun _ => EndsExpr.word

theorem legible_ellipsis (span : Span) :
    Legible d Level.atom true "...".toList (Expr.constant span .ellipsis).SameAs := by
  refine .token ⟨'.', ['.', '.'], rfl, by decide, by decide, by decide, by decide⟩ (fun bs =>
    ?_)
    fun t ht => ⟨.constant t.span .ellipsis, .ellipsis ht, rfl⟩
  exact (goes_op "..." (by decide) bs).narrow
    fun rest _ => endsOperator_of_extensions (by decide) (by decide) rest

theorem legible_int {n} (h : n < Nat.pow 10 maxIntDigits) (span : Span) :
    Legible d Level.atom false (decimal n).toList (Expr.constant span (.int n)).SameAs := by
  refine .token ?_ (fun bs => goes_int h bs)
    fun t ht => ⟨.constant t.span (.int n), .number ht, rfl⟩
  obtain ⟨c, more, hmore⟩ : ∃ c more, (decimal n).toList = c :: more :=
    List.exists_cons_of_ne_nil (by simp [decimal, Nat.toDigits_ne_nil])
  refine begins_of_nameChar (c := c) (by rw [hmore]; rfl) (isNameChar_of_isDigit ?_)
  exact isDigit_of_mem_decimal (n := n) (by simp [hmore])

theorem plainLiterals_quotedToken {ps} (h : ∀ n ∈ ps, n < 0x110000) (marked : Bool) :
    plainLiterals [quotedToken (if marked then ['u'] else []) ps] = some (.str ps marked) := by
  have hvalue := (decodeText_quotedBody h).1
  cases marked <;>
    simp [plainLiterals, quotedToken, StringToken.isBytes, StringToken.has, StringToken.plainPieces,
      StringToken.isRaw, hvalue]

theorem legible_quoted {ps} (h : ∀ n ∈ ps, n < 0x110000) (marked : Bool) (span : Span) :
    Legible d Level.atom true (if marked then "u" ++ quoted ps else quoted ps).toList
      (Expr.constant span (.str ps marked)).SameAs := by
  refine .token ?_ (fun bs => (goes_quoted h marked bs).narrow fun _ => EndsExpr.word) fun t ht =>
    ?_
  · have hquote := isQuote_plainQuote ps
    cases marked with
    | true =>
      exact ⟨'u', (quoted ps).toList, by simp, by decide, by decide, by decide, by decide⟩
    | false =>
      refine ⟨plainQuote ps, quotedBody ps ++ [plainQuote ps], by simp [quoted], ?_⟩
      rcases hquote with hq | hq <;> (rw [hq]; decide)
  · obtain ⟨kind, tspan⟩ := t
    obtain rfl : kind = _ := ht
    have hliteral (span : Span) : concatLiterals (rules d 0) span
        [(quotedToken (if marked then ['u'] else []) ps, tspan)]
        = some (.constant span (.str ps marked)) := by
      rw [concatLiterals_eq_plainLiterals (by simp) (by cases marked <;> simp [quotedToken,
        StringToken.isFormatted, StringToken.has])]
      simp only [List.map_cons, List.map_nil, plainLiterals_quotedToken h, Option.map_some]
    exact ⟨_, .strings (hliteral _), rfl⟩

end Tokens

/-! ## Sequences -/

/-- The tokens are a phrase of the form for a tree with `R`. -/
def IsTree (d : Dialect) (f : Form) (R : Tree → Prop) (ts : List Token) : Prop :=
  ∃ x, Phrase d f ts [x] ∧ R x

/-- The tree is made with `make` of something with `P`. -/
def Tree.IsMade {α : Type} (make : α → Tree) (P : α → Prop) (x : Tree) : Prop :=
  ∃ a, x = make a ∧ P a

theorem IsPhrase.isTree {d f} {Q : Expr → Prop} {ts} (h : IsPhrase d f Q ts) :
    IsTree d f (Tree.IsMade .expr Q) ts := by
  obtain ⟨e, hp, he⟩ := h
  exact ⟨.expr e, hp, e, rfl, he⟩

theorem made_of_forall₂ {α ι : Type} {make : α → Tree} {P : ι → α → Prop} {is xs}
    (h : List.Forall₂ (fun i => Tree.IsMade make (P i)) is xs) :
    ∃ as : List α, xs = as.map make ∧ List.Forall₂ P is as := by
  induction h with
  | nil => exact ⟨[], rfl, .nil⟩
  | cons h _ ih =>
    obtain ⟨a, rfl, ha⟩ := h
    obtain ⟨as, rfl, has⟩ := ih
    exact ⟨a :: as, rfl, .cons ha has⟩

section Sequences

variable {d : Dialect} {ι : Type} {f : Form} {R : ι → Tree → Prop} {is : List ι}

/-- The texts are read as trees of the form, and each of them ends an expression in front of it. -/
def ArePieces (d : Dialect) (f : Form) (R : ι → Tree → Prop) (is : List ι)
    (texts : List (List Char)) :
    Prop :=
  List.Forall₂ (fun i text => (∀ rest, EndsExpr false (text ++ rest)) ∧
    GoesIn false text (IsTree d f (R i))) is texts

theorem ArePieces.goes_before {texts text point} {P P' : List Token → Prop}
    (hs : ArePieces d f R is texts) (h : GoesIn point text P) (h' : GoesIn false texts.flatten P') :
    GoesIn false (text ++ texts.flatten) (InTurn P P') := by
  refine fun bs => (h bs).seq (h' bs) fun rest hrest => ?_
  cases hs with
  | nil => exact hrest.mono
  | cons hnext _ =>
    rw [List.flatten_cons, List.append_assoc]
    exact (hnext.1 _).mono

theorem ArePieces.goes {texts} (h : ArePieces d f R is texts) :
    GoesIn false texts.flatten
      (fun ts => ∃ xs, Phrase d (.many f) ts xs ∧ List.Forall₂ R is xs) := by
  induction h with
  | nil =>
    refine fun bs => Goes.empty.mono (fun _ _ => trivial) ?_
    rintro _ rfl
    exact ⟨[], .manyNil, .nil⟩
  | cons hi htail ih =>
    rw [List.flatten_cons]
    refine (ArePieces.goes_before htail hi.2 ih).imp ?_
    rintro _ ⟨us, vs, rfl, ⟨x, hp, hx⟩, xs, hps, hxs⟩
    exact ⟨x :: xs, .manyCons hp hps, .cons hx hxs⟩

theorem toList_join_cons (sep text : String) (texts : List String) :
    (join sep (text :: texts)).toList
      = text.toList ++ (texts.map fun text => sep.toList ++ text.toList).flatten := by
  induction texts generalizing text with
  | nil => simp [join]
  | cons next texts ih =>
    rw [join, String.toList_append, String.toList_append, ih]
    · simp
    · simp

/-- The texts are read as trees of the form. -/
def AreTrees (d : Dialect) (f : Form) (R : ι → Tree → Prop) (is : List ι)
    (texts : List String) :
    Prop :=
  List.Forall₂ (fun i (text : String) =>
    ∀ bs, Goes bs text.toList bs (EndsExpr false) (IsTree d f (R i))) is texts

/-- The tokens are phrases with commas between them. -/
def Listed (d : Dialect) (f : Form) (R : ι → Tree → Prop) (is : List ι) (ts : List Token) :
    Prop :=
  ∃ us vs x xs, ts = us ++ vs ∧ Phrase d f us [x] ∧ Phrase d (.many (.further f)) vs xs ∧
    List.Forall₂ R is (x :: xs)

theorem goes_comma (bs : List Char) : Goes bs [','] bs (fun _ => True) (IsToken (.op ",")) :=
  (goes_op "," (by decide) bs).narrow
    fun rest _ => endsOperator_of_extensions (by decide) (by decide) rest

theorem goes_join {texts} (h : AreTrees d f R is texts) (hne : is ≠ []) :
    GoesIn false (join ", " texts).toList (Listed d f R is) := by
  cases h with
  | nil => exact absurd rfl hne
  | @cons i text is texts hi hrest =>
    have hfurther : ArePieces d (.further f) R is
        (texts.map fun text => ", ".toList ++ text.toList) := by
      refine List.forall₂_map_right_iff.2 (hrest.imp fun i text hi =>
        ⟨fun rest => endsExpr_of_mem (c := ',') (by decide) _, fun bs => ?_⟩)
      refine (((goes_comma bs).seq Goes.blank fun _ _ => trivial).seq (hi bs)
        fun _ _ => trivial).imp ?_
      rintro _ ⟨_, us, rfl, ⟨_, _, rfl, ⟨t, rfl, ht⟩, rfl⟩, x, hp, hx⟩
      exact ⟨x, .further ht hp, hx⟩
    rw [toList_join_cons]
    refine (hfurther.goes_before hi hfurther.goes).imp ?_
    rintro _ ⟨us, vs, rfl, ⟨x, hp, hx⟩, xs, hps, hxs⟩
    exact ⟨us, vs, x, xs, rfl, hp, hps, .cons hx hxs⟩

theorem Listed.commas {ts} (h : Listed d f R is ts) (needed : Bool)
    (hneeded : needed = true → 2 ≤ is.length) :
    ∃ xs, Phrase d (.commas f needed) ts xs ∧ List.Forall₂ R is xs := by
  obtain ⟨us, vs, x, xs, rfl, hp, hps, hxs⟩ := h
  refine ⟨x :: xs, ?_, hxs⟩
  have hmore : needed = true → vs ++ [] ≠ [] := by
    intro hn
    have htwo := hneeded hn
    rw [hxs.length_eq] at htwo
    cases hps with
    | manyNil => simp at htwo
    | manyCons hfurther _ =>
      cases hfurther
      simp
  simpa using Phrase.commas hp hps (.inl rfl) hmore

theorem Listed.trailing {ts needed} (h : Listed d f R is ts) {t} (ht : t.kind = .op ",") :
    ∃ xs, Phrase d (.commas f needed) (ts ++ [t]) xs ∧ List.Forall₂ R is xs := by
  obtain ⟨us, vs, x, xs, rfl, hp, hps, hxs⟩ := h
  exact ⟨x :: xs, .commas hp hps (.inr ⟨t, rfl, ht⟩) fun _ => by simp, hxs⟩

/-- The tokens are a phrase of the form for what is made of things with `P`. -/
def AreMade {α : Type} (d : Dialect) (f : Form) (make : α → Tree) (P : ι → α → Prop)
    (is : List ι) (ts : List Token) : Prop :=
  ∃ as : List α, Phrase d f ts (as.map make) ∧ List.Forall₂ P is as

theorem goes_commas {α : Type} {make : α → Tree} {P : ι → α → Prop} {texts}
    (h : AreTrees d f (fun i => Tree.IsMade make (P i)) is texts) (hne : is ≠ []) :
    GoesIn false (join ", " texts).toList (AreMade d (.commas f false) make P is) := by
  refine (goes_join h hne).imp fun ts hts => ?_
  obtain ⟨xs, hp, hxs⟩ := hts.commas false (by simp)
  obtain ⟨as, rfl, has⟩ := made_of_forall₂ hxs
  exact ⟨as, hp, has⟩

theorem goes_tupleItems {texts} (h : AreTrees d f R is texts) (hne : is ≠ []) :
    GoesIn false (tupleItems texts).toList
      (fun ts => ∃ xs, Phrase d (.commas f true) ts xs ∧ List.Forall₂ R is xs) := by
  have hjoin := goes_join h hne
  match texts, h with
  | [], .nil => exact absurd rfl hne
  | [text], h =>
    have htext : (tupleItems [text]).toList = (join ", " [text]).toList ++ [','] := by
      simp [tupleItems, join]
    rw [htext]
    refine fun bs => ((hjoin bs).seq (goes_comma bs) fun rest _ =>
      endsExpr_of_mem (by decide) rest).mono
      (fun _ _ => trivial) ?_
    rintro _ ⟨us, _, rfl, hus, t, rfl, ht⟩
    exact hus.trailing ht
  | text :: next :: texts, h =>
    refine hjoin.imp fun ts hts => hts.commas true fun _ => ?_
    rw [h.length_eq]
    simp

end Sequences

/-! ## Marks in front of expressions -/

/-- A token in front of other tokens. -/
def Marked (kind : TokenKind) (P : List Token → Prop) (ts : List Token) : Prop :=
  ∃ t us, ts = t :: us ∧ t.kind = kind ∧ P us

def isMark (op : String) : Bool :=
  ["*", "**", "+", "-", "~", "=", ":"].contains op

section Marks

variable {d : Dialect} {level : Nat} {point : Bool} {text : List Char} {Q : Expr → Prop}

theorem marks_extensions : ∀ op ∈ ["*", "**", "+", "-", "~", "=", ":"],
    isPlainOperator op = true ∧ op ≠ "." ∧ extensions op ⊆ ['=', '>', '*'] := by
  decide

theorem goes_mark (op : String) (hop : isMark op = true) (hbegins : Begins text)
    {Ends : List Char → Prop} {P : List Token → Prop} {bs} (h : Goes bs text bs Ends P) :
    Goes bs (op.toList ++ text) bs Ends (Marked (.op op) P) := by
  obtain ⟨hplain, hpoint, hext⟩ := marks_extensions op (List.contains_iff_mem.1 hop)
  obtain ⟨c, r, rfl, -, hequal, hgreater, hstar⟩ := hbegins
  refine ((goes_op op hplain bs).seq h fun rest _ => ?_).imp ?_
  · intro c' hc'
    obtain rfl : c = c' := Option.some.inj hc'
    refine ⟨fun hmem => ?_, fun heq => absurd heq hpoint⟩
    obtain h | h | h : c = '=' ∨ c = '>' ∨ c = '*' := by simpa using hext hmem
    · exact hequal h
    · exact hgreater h
    · exact hstar h
  · rintro _ ⟨_, us, rfl, ⟨t, rfl, ht⟩, hus⟩
    exact ⟨t, us, rfl, ht, hus⟩

theorem Legible.marked (op : String) (hop : isMark op = true) (h : Legible d level point text Q)
    {P : List Token → Prop}
    (hP : ∀ {t us e}, t.kind = .op op → Phrase d (.expr level) us [.expr e] → Q e →
    P (t :: us)) : GoesIn point (op.toList ++ text) P := by
  refine fun bs => (goes_mark op hop h.begins (h.goes bs)).imp ?_
  rintro _ ⟨t, us, rfl, ht, e, hp, he⟩
  exact hP ht hp he

theorem Legible.sign {op} (hop : op ≠ .not) (h : Legible d Level.factor point text Q) :
    Legible d Level.factor point (op.text.toList ++ text)
      (fun e => ∃ span v, e = .unaryOp span op v ∧ Q v) where
  begins := by
    cases op with
    | not => exact absurd rfl hop
    | _ => exact ⟨_, _, rfl, by decide, by decide, by decide, by decide⟩
  goes := by
    have hmark : isMark op.text = true ∧ signOp? (.op op.text) = some op := by
      cases op with
      | not => exact absurd rfl hop
      | _ => exact ⟨by decide, rfl⟩
    exact h.marked op.text hmark.1 (fun ht hp he =>
      ⟨_, .sign (ht ▸ hmark.2) hp, _, _, rfl, he⟩)

theorem Legible.goes_starred (h : Legible d Level.bitOr point text Q) (f : Form) :
    GoesIn point ('*' :: text)
      (IsPhrase d (.starOr f) fun e => ∃ span v, e = .starred span v ∧ Q v) :=
  h.marked "*" (by decide) (fun ht hp he => ⟨_, .starred ht hp, _, _, rfl, he⟩)

theorem Legible.goes_element (h : Legible d Level.test point text Q) :
    GoesIn point text (IsPhrase d .element Q) :=
  .imp h.goes fun _ ⟨e, hp, he⟩ => ⟨e, .unstarred (.unnamed hp), he⟩

theorem Legible.goes_starredSlice (h : Legible d Level.test point text Q) :
    GoesIn point ('*' :: text)
      (IsPhrase d .slice fun e => ∃ span v, e = .starred span v ∧ Q v) :=
  h.marked "*" (by decide) (fun ht hp he => ⟨_, .starredSlice ht hp, _, _, rfl, he⟩)

theorem Legible.goes_slice (h : Legible d Level.test point text Q) :
    GoesIn point text (IsPhrase d .slice Q) :=
  .imp h.goes fun _ ⟨e, hp, he⟩ => ⟨e, .plainSlice (.unnamed hp), he⟩

end Marks

/-! ## Displays -/

section Displays

variable {d : Dialect} {Q : Expr → Expr → Prop} {es : List Expr} {texts : List String}

/-- The texts are those of elements, perhaps with stars. -/
def AreElements (d : Dialect) (f : Form) (Q : Expr → Expr → Prop) (es : List Expr)
    (texts : List String) : Prop :=
  List.Forall₂ (fun e (text : String) =>
    ∀ bs, Goes bs text.toList bs (EndsExpr false) (IsPhrase d f (Q e))) es texts

theorem AreElements.trees {f} (h : AreElements d f Q es texts) :
    AreTrees d f (fun e => Tree.IsMade .expr (Q e)) es texts :=
  h.imp fun _ _ htext bs => (htext bs).imp fun _ => IsPhrase.isTree

theorem goes_nothing (point : Bool) : GoesIn point [] (· = []) :=
  fun _ => Goes.empty.narrow fun _ _ => trivial

theorem legible_list (h : AreElements d .element Q es texts) :
    Legible d Level.atom true ("[" ++ join ", " texts ++ "]").toList
      (fun e => ∃ span es', e = .list span es' ∧ List.Forall₂ Q es es') := by
  by_cases hne : es = []
  · subst hne
    cases h
    refine .enclosed isPair_square (goes_nothing true) fun ho hus hc => ?_
    subst hus
    exact ⟨_, .noList ho hc, _, [], rfl, .nil⟩
  · exact .enclosed isPair_square (goes_commas h.trees hne)
      fun ho ⟨es', hp, hes⟩ hc => ⟨_, .list ho hp hc, _, es', rfl, hes⟩

theorem legible_set (h : AreElements d .element Q es texts) (hne : es ≠ []) :
    Legible d Level.atom true ("\x7b" ++ join ", " texts ++ "\x7d").toList
      (fun e => ∃ span es', e = .set span es' ∧ List.Forall₂ Q es es') :=
  .enclosed isPair_curly (goes_commas h.trees hne)
    fun ho ⟨es', hp, hes⟩ hc => ⟨_, .set ho hp hc, _, es', rfl, hes⟩

theorem legible_noTuple :
    Legible d Level.atom true ("(" ++ "" ++ ")").toList (fun e =>
    ∃ span, e = .tuple span []) := by
  refine .enclosed isPair_round (goes_nothing true) fun ho hus hc => ?_
  subst hus
  exact ⟨_, .noTuple ho hc, _, rfl⟩

/-- A tuple whose elements are read with a comma among them. -/
theorem legible_tuple {text} (h : GoesIn false text.toList (fun ts => ∃ xs,
      Phrase d (.commas .element true) ts xs ∧ List.Forall₂ (fun e =>
      Tree.IsMade .expr (Q e)) es xs)) :
    Legible d Level.atom true ("(" ++ text ++ ")").toList
      (fun e => ∃ span es', e = .tuple span es' ∧ List.Forall₂ Q es es') := by
  refine .enclosed isPair_round h fun ho ⟨xs, hp, hxs⟩ hc => ?_
  obtain ⟨es', rfl, hes⟩ := made_of_forall₂ hxs
  exact ⟨_, .tuple ho hp hc, _, es', rfl, hes⟩

end Displays

/-! ## Members, subscripts and calls -/

section Primaries

variable {d : Dialect} {point : Bool} {text : List Char} {Q : Expr → Prop}

theorem Begins.append {a b} (h : Begins a) : Begins (a ++ b) := by
  obtain ⟨c, r, rfl, hc⟩ := h
  exact ⟨c, r ++ b, rfl, hc⟩

theorem goes_point {attr} (hattr : isName attr = true) (bs : List Char) :
    Goes bs ('.' :: attr.toList) bs EndsWord
      (fun ts => ∃ p n, ts = [p, n] ∧ p.kind = .op "." ∧ n.kind = .name attr) := by
  refine ((goes_op "." (by decide) bs).seq (goes_name hattr bs) fun rest _ => ?_).imp ?_
  · obtain ⟨c, hc, hstart, hchars⟩ := isName_chars hattr
    obtain ⟨more, hmore⟩ := List.head?_eq_some_iff.1 hc
    rw [hmore]
    intro c' hc'
    obtain rfl : c = c' := Option.some.inj hc'
    constructor
    · have hext : extensions "." ⊆ ['.'] := by decide
      intro hmem
      rw [List.mem_singleton.1 (hext hmem)] at hstart
      revert hstart
      decide
    · intro _
      cases hdigit : isDigit c with
      | false => rfl
      | true =>
        rw [not_nameStart_of_isDigit hdigit] at hstart
        cases hstart
  · rintro _ ⟨_, _, rfl, ⟨p, rfl, hp⟩, n, rfl, hn⟩
    exact ⟨p, n, rfl, hp, hn⟩

theorem Legible.member (h : Legible d Level.atom point text Q) {attr} (hattr : isName attr = true)
    {gap} (hgap : gap = [' '] ∨ gap = [] ∧ point = true) :
    Legible d Level.atom true (text ++ (gap ++ '.' :: attr.toList))
      (fun e => ∃ span v, e = .attribute span v attr ∧ Q v) where
  begins := h.begins.append
  goes bs := by
    have hgoes : Goes bs (gap ++ '.' :: attr.toList) bs EndsWord
        (fun ts => ∃ p n, ts = [p, n] ∧ p.kind = .op "." ∧ n.kind = .name attr) := by
      rcases hgap with rfl | ⟨rfl, -⟩
      · refine (Goes.blank.seq (goes_point hattr bs) fun _ _ => trivial).imp ?_
        rintro _ ⟨_, _, rfl, rfl, h⟩
        exact h
      · exact goes_point hattr bs
    refine ((h.goes bs).seq hgoes fun rest _ => ?_).mono (fun _ => EndsExpr.word) ?_
    · rcases hgap with rfl | ⟨rfl, rfl⟩
      · exact endsExpr_of_mem (by decide) _
      · exact endsExpr_cons (by decide) (fun _ => rfl) _
    · rintro _ ⟨us, _, rfl, ⟨e, hp, he⟩, p, n, rfl, hpoint, hn⟩
      exact ⟨_, .member hp hpoint hn, _, e, rfl, he⟩

theorem Legible.applied {text opening inner closing} {Q' : Expr → Prop}
    (h : Legible d Level.atom point text.toList Q) (hpair : IsPair opening closing)
    {P : List Token → Prop} (hinner : GoesIn false inner.toList P)
    (hatom : ∀ {ts v o us c}, Phrase d (.expr Level.atom) ts [.expr v] → Q v →
      o.kind = .op opening →
      P us → c.kind = .op closing → IsPhrase d (.expr Level.atom) Q' (ts ++ o :: (us ++ [c]))) :
    Legible d Level.atom true (text ++ opening ++ inner ++ closing).toList Q' := by
  rw [String.toList_append, String.toList_append, String.toList_append, List.append_assoc,
    List.append_assoc]
  refine ⟨h.begins.append, fun bs => ?_⟩
  rw [← List.append_assoc opening.toList]
  refine ((h.goes bs).seq (goes_enclosed hpair hinner bs) fun rest _ => ?_).imp ?_
  · rcases hpair.cases with ⟨rfl, -⟩ | ⟨rfl, -⟩ | ⟨rfl, -⟩
      <;> exact endsExpr_of_mem (by decide) _
  · rintro _ ⟨us, _, rfl, ⟨v, hv, hQ⟩, o, vs, c, rfl, ho, hvs, hc⟩
    exact hatom hv hQ ho hvs hc

theorem Legible.subscript {text index} (h : Legible d Level.atom point text.toList Q)
    {Q' : Expr → Prop} (hindex : GoesIn false index.toList (IsPhrase d .index Q')) :
    Legible d Level.atom true (text ++ "[" ++ index ++ "]").toList
      (fun e => ∃ span v i, e = .subscript span v i ∧ Q v ∧ Q' i) :=
  h.applied isPair_square hindex fun hv hQ ho ⟨i, hi, hQ'⟩ hc =>
    ⟨_, .subscript hv ho hi hc, _, _, i, rfl, hQ, hQ'⟩

theorem Legible.call {text args} (h : Legible d Level.atom point text.toList Q)
    {P : ArgState → Prop} (hargs : GoesIn false args.toList (fun ts => ∃ as st,
      Phrase d .arguments ts (as.map .argument) ∧ ArgState.empty.addAll as = some st ∧ P st)) :
    Legible d Level.atom true (text ++ "(" ++ args ++ ")").toList
      (fun e => ∃ span v st, e = .call span v st.args st.keywords ∧ Q v ∧ P st) :=
  h.applied isPair_round hargs fun hv hQ ho ⟨_, st, hp, hst, hP⟩ hc =>
    ⟨_, .call hv ho hp hc hst, _, _, st, rfl, hQ, hP⟩

end Primaries

/-! ## Operators -/

/-- A blank follows. -/
def EndsBlank (rest : List Char) : Prop :=
  ∃ r, rest = ' ' :: r

theorem operators_blank : ∀ op ∈ operators, ' ' ∉ extensions op := by
  decide +kernel

theorem goes_opBlank (op : String) (h : isPlainOperator op = true) (bs : List Char) :
    Goes bs op.toList bs EndsBlank (IsToken (.op op)) := by
  refine (goes_op op h bs).narrow ?_
  rintro _ ⟨r, rfl⟩ c hc
  obtain rfl : ' ' = c := Option.some.inj hc
  simp only [isPlainOperator, Bool.and_eq_true, List.contains_iff_mem] at h
  exact ⟨operators_blank op h.1, fun _ => rfl⟩

theorem goes_keywordBlank (word : String) (h : word ∈ keywords)
    (hsteady : (TokenKind.keyword word).isSteady = true) (bs : List Char) :
    Goes bs word.toList bs EndsBlank (IsToken (.keyword word)) := by
  refine (goes_keyword h hsteady bs).narrow ?_
  rintro _ ⟨r, rfl⟩ c hc
  obtain rfl : ' ' = c := Option.some.inj hc
  decide

section Operators

variable {d : Dialect} {level level' : Nat} {point point' : Bool} {text text' : List Char}
  {Q Q' : Expr → Prop}

theorem goes_between {bs w} {Ends : List Char → Prop} {P P' : List Token → Prop}
    (hw : Goes bs w bs EndsBlank P) (h : Goes bs text bs Ends P') :
    Goes bs (' ' :: (w ++ ' ' :: text)) bs Ends (InTurn P P') := by
  have hrest := Goes.blank.seq h fun _ _ => trivial
  refine (Goes.blank.seq (hw.seq hrest fun rest _ => ⟨text ++ rest, rfl⟩) fun _ _ =>
    trivial).imp ?_
  rintro _ ⟨_, _, rfl, rfl, us, _, rfl, hus, _, vs, rfl, rfl, hvs⟩
  exact ⟨us, vs, rfl, hus, hvs⟩

theorem goes_operator {w} {P : List Token → Prop} (h : Legible d level point text Q)
    (hw : ∀ bs, Goes bs w bs EndsBlank P) (h' : Legible d level' point' text' Q') :
    GoesIn point' (text ++ ' ' :: (w ++ ' ' :: text'))
      (InTurn (IsPhrase d (.expr level) Q) (InTurn P (IsPhrase d (.expr level') Q'))) :=
  fun bs => (h.goes bs).seq (goes_between (hw bs) (h'.goes bs)) fun _ _ =>
    endsExpr_of_mem (by decide) _

theorem isPlainOperator_text (op : BinaryOp) : isPlainOperator op.text = true := by
  cases op <;> decide

theorem Legible.binary {op} (hop : op ≠ .pow) (hd : op = .matMult → 5 ≤ d.minor)
    (h : Legible d op.level point text Q) (h' : Legible d (op.level + 1) point' text' Q') :
    Legible d op.level point' (text ++ ' ' :: (op.text.toList ++ ' ' :: text'))
      (fun e => ∃ span l r, e = .binOp span l op r ∧ Q l ∧ Q' r) where
  begins := h.begins.append
  goes := by
    refine (goes_operator h (goes_opBlank op.text (isPlainOperator_text op)) h').imp ?_
    rintro _ ⟨us, _, rfl, ⟨l, hl, hQ⟩, _, vs, rfl, ⟨t, rfl, ht⟩, r, hr, hQ'⟩
    exact ⟨_, .binary hop hd hl ht hr, _, l, r, rfl, hQ, hQ'⟩

theorem Legible.power (h : Legible d Level.await point text Q)
    (h' : Legible d Level.factor point' text' Q') :
    Legible d Level.power point' (text ++ ' ' :: ("**".toList ++ ' ' :: text'))
      (fun e => ∃ span l r, e = .binOp span l .pow r ∧ Q l ∧ Q' r) where
  begins := h.begins.append
  goes := by
    refine (goes_operator h (goes_opBlank "**" (by decide)) h').imp ?_
    rintro _ ⟨us, _, rfl, ⟨l, hl, hQ⟩, _, vs, rfl, ⟨t, rfl, ht⟩, r, hr, hQ'⟩
    exact ⟨_, .power hl ht hr, _, l, r, rfl, hQ, hQ'⟩

theorem goes_word (word : String) (h : word ∈ keywords)
    (hsteady : (TokenKind.keyword word).isSteady = true) {bs} {Ends : List Char → Prop}
    {P : List Token → Prop} (hgoes : Goes bs text bs Ends P) :
    Goes bs (word.toList ++ ' ' :: text) bs Ends (Marked (.keyword word) P) := by
  have hrest := Goes.blank.seq hgoes fun _ _ => trivial
  refine ((goes_keywordBlank word h hsteady bs).seq hrest fun rest _ =>
    ⟨text ++ rest, rfl⟩).imp ?_
  rintro _ ⟨_, _, rfl, ⟨t, rfl, ht⟩, _, us, rfl, rfl, hus⟩
  exact ⟨t, us, rfl, ht, hus⟩

theorem Legible.not (h : Legible d Level.not point text Q) :
    Legible d Level.not point ("not".toList ++ ' ' :: text)
      (fun e => ∃ span v, e = .unaryOp span .not v ∧ Q v) where
  begins := ⟨'n', _, rfl, by decide, by decide, by decide, by decide⟩
  goes bs := by
    refine (goes_word "not" (by decide) (by decide) (h.goes bs)).imp ?_
    rintro _ ⟨t, us, rfl, ht, e, hp, he⟩
    exact ⟨_, .inversion ht hp, _, e, rfl, he⟩

theorem Legible.ifExp {text''} {Q'' : Expr → Prop} {point''} (h : Legible d Level.or point text Q)
    (h' : Legible d Level.or point' text' Q') (h'' : Legible d Level.test point'' text'' Q'') :
    Legible d Level.test point'' (text ++ ' ' :: ("if".toList ++ ' ' :: (text' ++
        ' ' :: ("else".toList ++ ' ' :: text''))))
      (fun e => ∃ span b t o, e = .ifExp span t b o ∧ Q b ∧ Q' t ∧ Q'' o) where
  begins := h.begins.append
  goes bs := by
    have htail := goes_operator h' (goes_keywordBlank "else" (by decide) (by decide)) h'' bs
    have hif := goes_between (goes_keywordBlank "if" (by decide) (by decide) bs) htail
    refine ((h.goes bs).seq hif fun _ _ => endsExpr_of_mem (by decide) _).imp ?_
    rintro _ ⟨us, _, rfl, ⟨b, hb, hQ⟩, _, _, rfl, ⟨i, rfl, hi⟩, vs, _, rfl,
      ⟨t, ht, hQ'⟩, _, ws, rfl, ⟨l, rfl, hl⟩, o, ho, hQ''⟩
    exact ⟨_, .ifExp hb hi ht hl ho, _, b, t, o, rfl, hQ, hQ', hQ''⟩

/-! Chains of operands. -/

theorem BoolOp.text_mem (op : BoolOp) :
    op.text ∈ keywords ∧ (TokenKind.keyword op.text).isSteady = true := by
  cases op <;> decide

theorem Legible.goes_operand {op} (h : Legible d (op.level + 1) point text Q) :
    GoesIn point (' ' :: (op.text.toList ++ ' ' :: text))
      (IsTree d (.operand op) (Tree.IsMade .expr Q)) := by
  obtain ⟨hword, hsteady⟩ := op.text_mem
  refine fun bs => (goes_between (goes_keywordBlank op.text hword hsteady bs) (h.goes bs)).imp ?_
  rintro _ ⟨_, us, rfl, ⟨t, rfl, ht⟩, e, hp, he⟩
  exact ⟨_, .operand ht hp, e, rfl, he⟩

theorem legible_boolOp {op} {Q : Expr → Expr → Prop} {e es text texts}
    (h : Legible d (op.level + 1) false text.toList (Q e))
    (hs : List.Forall₂ (fun e (text : String) =>
      Legible d (op.level + 1) false text.toList (Q e)) es texts) (hne : es ≠ []) :
    Legible d op.level false (join (" " ++ op.text ++ " ") (text :: texts)).toList
      (fun e' => ∃ span es', e' = .boolOp span op es' ∧ List.Forall₂ Q (e :: es) es') where
  begins := by
    rw [toList_join_cons]
    exact h.begins.append
  goes := by
    have hsep : ∀ text : String, (" " ++ op.text ++ " ").toList ++ text.toList
        = ' ' :: (op.text.toList ++ ' ' :: text.toList) := by simp
    have hoperands : ArePieces d (.operand op) (fun e => Tree.IsMade .expr (Q e)) es
        (texts.map fun text => (" " ++ op.text ++ " ").toList ++ text.toList) := by
      refine List.forall₂_map_right_iff.2 (hs.imp fun e text htext => ?_)
      rw [hsep]
      exact ⟨fun rest => endsExpr_of_mem (by decide) _, htext.goes_operand⟩
    rw [toList_join_cons]
    refine (hoperands.goes_before h.goes hoperands.goes).imp ?_
    rintro _ ⟨us, vs, rfl, ⟨e', hp, he⟩, xs, hps, hxs⟩
    obtain ⟨es', rfl, hes⟩ := made_of_forall₂ hxs
    refine ⟨_, .boolOp hp hps ?_, _, _, rfl, .cons he hes⟩
    rintro rfl
    cases hes
    exact hne rfl

theorem goes_compareOp (op : CompareOp) (bs : List Char) :
    Goes bs op.text.toList bs EndsBlank (fun ts => ts.map (·.kind) = op.kinds) := by
  have hop : ∀ text : String, isPlainOperator text = true →
      Goes bs text.toList bs EndsBlank (fun ts => ts.map (·.kind) = [.op text]) := by
    intro text h
    refine (goes_opBlank text h bs).imp ?_
    rintro _ ⟨t, rfl, ht⟩
    simp [ht]
  have hword : ∀ word : String, word ∈ keywords → (TokenKind.keyword word).isSteady = true →
      Goes bs word.toList bs EndsBlank (fun ts => ts.map (·.kind) = [.keyword word]) := by
    intro word h hsteady
    refine (goes_keywordBlank word h hsteady bs).imp ?_
    rintro _ ⟨t, rfl, ht⟩
    simp [ht]
  have htwo : ∀ first second : String, first ∈ keywords →
      (TokenKind.keyword first).isSteady = true → second ∈ keywords →
      (TokenKind.keyword second).isSteady = true →
      Goes bs (first.toList ++ ' ' :: second.toList) bs EndsBlank
        (fun ts => ts.map (·.kind) = [.keyword first, .keyword second]) := by
    intro first second h hsteady h' hsteady'
    refine (goes_word first h hsteady (hword second h' hsteady')).imp ?_
    rintro _ ⟨t, us, rfl, ht, hus⟩
    rw [List.map_cons, ht, hus]
  cases op with
  | is => exact hword "is" (by decide) (by decide)
  | isIn => exact hword "in" (by decide) (by decide)
  | isNot => exact htwo "is" "not" (by decide) (by decide) (by decide) (by decide)
  | notIn => exact htwo "not" "in" (by decide) (by decide) (by decide) (by decide)
  | _ => exact hop _ (by decide)

theorem Legible.goes_comparison (h : Legible d Level.bitOr point text Q) (op : CompareOp) :
    GoesIn point (' ' :: (op.text.toList ++ ' ' :: text))
      (IsTree d .comparison (Tree.IsMade .comparison fun c => c.op = op ∧ Q c.right)) := by
  refine fun bs => (goes_between (goes_compareOp op bs) (h.goes bs)).imp ?_
  rintro _ ⟨us, vs, rfl, hus, e, hp, he⟩
  exact ⟨_, .comparison hus hp, _, rfl, rfl, he⟩

theorem legible_compare {Q : Expr → Prop} {R : Comparison Expr → Expr → Prop} {cs texts}
    (h : Legible d Level.bitOr point text Q) (hs : List.Forall₂ (fun c piece => ∃ right,
      piece = ' ' :: (c.op.text.toList ++ ' ' :: right) ∧
      Legible d Level.bitOr false right (R c)) cs texts)
    (hne : cs ≠ []) : Legible d Level.compare false (text ++ texts.flatten)
      (fun e => ∃ span l cs', e = .compare span l cs' ∧ Q l ∧
        List.Forall₂ (fun c c' => c'.op = c.op ∧ R c c'.right) cs cs') where
  begins := h.begins.append
  goes := by
    have hpieces : ArePieces d .comparison (fun c => Tree.IsMade .comparison
        fun c' => c'.op = c.op ∧ R c c'.right) cs texts := by
      refine hs.imp fun c piece hpiece => ?_
      obtain ⟨right, rfl, hright⟩ := hpiece
      exact ⟨fun rest => endsExpr_of_mem (by decide) _, hright.goes_comparison c.op⟩
    refine (hpieces.goes_before h.goes hpieces.goes).imp ?_
    rintro _ ⟨us, vs, rfl, ⟨l, hl, hQ⟩, xs, hps, hxs⟩
    obtain ⟨cs', rfl, hcs⟩ := made_of_forall₂ hxs
    refine ⟨_, .compare hl hps ?_, _, l, cs', rfl, hQ, hcs⟩
    rintro rfl
    cases hcs
    exact hne rfl

end Operators

/-! ## Arguments, entries and slices -/

section Parts

variable {d : Dialect} {point : Bool} {text : List Char} {Q : Expr → Prop}

theorem Legible.goes_positional (h : Legible d Level.test point text Q) : GoesIn point text
      (IsTree d .argument (Tree.IsMade .argument fun a => ∃ e, a = .positional e ∧ Q e)) :=
  .imp h.goes fun _ ⟨e, hp, he⟩ => ⟨_, .positional (.unnamed hp), _, rfl, e, rfl, he⟩

theorem Legible.goes_starredArgument (h : Legible d Level.test point text Q) :
    GoesIn point ('*' :: text) (IsTree d .argument
      (Tree.IsMade .argument fun a => ∃ span e, a = .starred (.starred span e) ∧ Q e)) :=
  h.marked "*" (by decide) (fun ht hp he => ⟨_, .starredArgument ht hp, _, rfl, _, _, rfl, he⟩)

theorem Legible.goes_namedArgument (h : Legible d Level.test point text Q) {id}
    (hid : isName id = true) : GoesIn point (id.toList ++ ("=".toList ++ text))
      (IsTree d .argument (Tree.IsMade .argument fun a => ∃ e, a = .named id e ∧ Q e)) := by
  intro bs
  have hvalue := goes_mark "=" (by decide) h.begins (h.goes bs)
  refine ((goes_name hid bs).seq hvalue fun rest _ => ?_).imp ?_
  · intro c hc
    obtain rfl : '=' = c := Option.some.inj hc
    decide
  · rintro _ ⟨_, _, rfl, ⟨n, rfl, hn⟩, t, us, rfl, ht, e, hp, he⟩
    exact ⟨_, .namedArgument hn ht hp, _, rfl, e, rfl, he⟩

theorem Legible.goes_unpackedArgument (h : Legible d Level.test point text Q) :
    GoesIn point ("**".toList ++ text)
      (IsTree d .argument (Tree.IsMade .argument fun a => ∃ e, a = .unpacked e ∧ Q e)) :=
  h.marked "**" (by decide) (fun ht hp he => ⟨_, .unpackedArgument ht hp, _, rfl, _, rfl, he⟩)

theorem goes_arguments {P : Argument → Argument → Prop} {as texts}
    (h : AreTrees d .argument (fun a => Tree.IsMade .argument (P a)) as texts) :
    GoesIn false (join ", " texts).toList (AreMade d .arguments .argument P as) := by
  by_cases hne : as = []
  · subst hne
    cases h
    refine (goes_nothing false).imp ?_
    rintro _ rfl
    exact ⟨[], .noArguments, .nil⟩
  · exact (goes_commas h hne).imp fun _ ⟨as', hp, has⟩ => ⟨as', .arguments hp, has⟩

theorem Legible.goes_plainEntry (h : Legible d Level.test point text Q) {point' text'}
    {Q' : Expr → Prop} (h' : Legible d Level.test point' text' Q') :
    GoesIn point' (text ++ ':' :: ' ' :: text')
      (IsTree d .entry (Tree.IsMade .entry fun entry =>
        ∃ k v, entry = { key := some k, value := v } ∧ Q k ∧ Q' v)) := by
  intro bs
  have hvalue := (goes_opBlank ":" (by decide) bs).seq
    (Goes.blank.seq (h'.goes bs) fun _ _ => trivial) fun rest _ => ⟨text' ++ rest, rfl⟩
  refine ((h.goes bs).seq hvalue fun rest _ => endsExpr_of_mem (by decide) _).imp ?_
  rintro _ ⟨us, _, rfl, ⟨k, hk, hQ⟩, _, _, rfl, ⟨m, rfl, hm⟩, _, vs, rfl,
    rfl, v, hv, hQ'⟩
  exact ⟨_, .plainEntry hk hm hv, _, rfl, k, v, rfl, hQ, hQ'⟩

theorem Legible.goes_unpackedEntry (h : Legible d Level.bitOr point text Q) :
    GoesIn point ("**".toList ++ text) (IsTree d .entry
      (Tree.IsMade .entry fun entry => ∃ v, entry = { key := none, value := v } ∧ Q v)) :=
  h.marked "**" (by decide) (fun ht hp he => ⟨_, .unpackedEntry ht hp, _, rfl, _, rfl, he⟩)

theorem legible_dict {P : Entry Expr → Entry Expr → Prop} {entries texts}
    (h : AreTrees d .entry (fun entry => Tree.IsMade .entry (P entry)) entries texts) :
    Legible d Level.atom true ("\x7b" ++ join ", " texts ++ "\x7d").toList
      (fun e => ∃ span entries', e = .dict span entries' ∧
      List.Forall₂ P entries entries') := by
  by_cases hne : entries = []
  · subst hne
    cases h
    refine .enclosed isPair_curly (goes_nothing true) fun ho hus hc => ?_
    subst hus
    exact ⟨_, .noDict ho hc, _, [], rfl, .nil⟩
  · exact .enclosed isPair_curly (goes_commas h hne)
      fun ho ⟨entries', hp, hentries⟩ hc => ⟨_, .dict ho hp hc, _, entries', rfl, hentries⟩

/-- What may stand for a bound of a slice: the text of an expression, or nothing. -/
def GoesOption (d : Dialect) (f : Form) (text : List Char) (P : Option Expr → Prop) : Prop :=
  text.head? ≠ some '=' ∧ ∀ bs, Goes bs text bs (EndsExpr false)
    (fun ts => ∃ o : Option Expr, Phrase d f ts (o.toList.map .expr) ∧ P o)

theorem goesOption_none {f} {P : Option Expr → Prop} (h : Phrase d f [] []) (hP : P none) :
    GoesOption d f [] P := by
  refine ⟨by simp, (goes_nothing false).imp ?_⟩
  rintro _ rfl
  exact ⟨none, h, hP⟩

theorem Legible.goesOption_bound {P : Option Expr → Prop} (h : Legible d Level.test point text Q)
    (hP : ∀ e, Q e → P (some e)) : GoesOption d .bound text P := by
  refine ⟨?_, GoesIn.imp h.blunt.goes ?_⟩
  · obtain ⟨c, r, rfl, -, hequal, -⟩ := h.begins
    exact fun hc => hequal (Option.some.inj hc)
  · rintro _ ⟨e, hp, he⟩
    exact ⟨some e, .bound hp, hP e he⟩

theorem Legible.goesOption_step {P : Option Expr → Prop} (h : Legible d Level.test point text Q)
    (hP : ∀ e, Q e → P (some e)) : GoesOption d .step (":".toList ++ text) P := by
  refine ⟨by simp, h.blunt.marked ":" (by decide) fun {_ _ e} ht hp he => ?_⟩
  exact ⟨some e, .step ht (.bound hp), hP e he⟩

theorem goes_sliceParts {lower upper step} {P P' P'' : Option Expr → Prop}
    (hlower : GoesOption d .bound lower P) (hupper : GoesOption d .bound upper P')
    (hstep : GoesOption d .step step P'') (hnext : step = [] ∨ ∃ r, step = ':' :: r) :
    GoesIn false (lower ++ ':' :: (upper ++ step)) (IsPhrase d .slice
      (fun e => ∃ span l u s, e = .slice span l u s ∧ P l ∧ P' u ∧ P'' s)) := by
  intro bs
  have htail := (hupper.2 bs).seq (hstep.2 bs) fun rest hrest => by
    rcases hnext with rfl | ⟨r, rfl⟩
    · exact hrest
    · exact endsExpr_of_mem (by decide) _
  have hcolon := (goes_op ":" (by decide) bs).seq htail fun rest hrest => by
    have hext : extensions ":" ⊆ ['='] := by decide
    refine fun c hc => ⟨fun hmem => ?_, fun heq => absurd heq (by decide)⟩
    obtain rfl := List.mem_singleton.1 (hext hmem)
    -- the character comes from the upper bound, the step or what follows
    cases upper with
    | cons c r => exact hupper.1 hc
    | nil =>
      cases step with
      | cons c r => exact hstep.1 hc
      | nil => exact (hrest _ hc).2.2.2.1 rfl
  refine ((hlower.2 bs).seq hcolon fun rest _ => endsExpr_of_mem (by decide) _).imp ?_
  rintro _ ⟨us, _, rfl, ⟨l, hl, hP⟩, _, _, rfl, ⟨m, rfl, hm⟩, vs, ws, rfl,
    ⟨u, hu, hP'⟩, s, hs, hP''⟩
  have hslice := Phrase.slice hl hm hu hs
  exact ⟨_, hslice, _, l, u, s, rfl, hP, hP', hP''⟩

theorem goes_index {Q : Expr → Prop} (h : GoesIn point text (IsPhrase d .slice Q))
    (hQ : ∀ e, Q e → e.isStarred = false) : GoesIn point text (IsPhrase d .index Q) :=
  h.imp fun _ ⟨e, hp, he⟩ => ⟨e, .index hp (hQ e he), he⟩

theorem goes_indices {Q : Expr → Expr → Prop} {es texts} (h : AreElements d .slice Q es texts)
    (hne : es ≠ []) : GoesIn false (tupleItems texts).toList (IsPhrase d .index
      (fun e => ∃ span es', e = .tuple span es' ∧ List.Forall₂ Q es es')) := by
  refine (goes_tupleItems h.trees hne).imp ?_
  rintro ts ⟨xs, hp, hxs⟩
  obtain ⟨es', rfl, hes⟩ := made_of_forall₂ hxs
  exact ⟨_, .indices hp, _, es', rfl, hes⟩

/-- Items with commas between them and none at the end, which are read as a tuple. -/
theorem goes_indicesOf {Q : Expr → Expr → Prop} {es texts} (h : AreElements d .slice Q es texts)
    (hform : 2 ≤ es.length ∨ ∃ e, es = [e] ∧ ∀ e', Q e e' → e'.isStarred = true) :
    GoesIn false (join ", " texts).toList (IsPhrase d .index
      (fun e => ∃ span es', e = .tuple span es' ∧ List.Forall₂ Q es es')) := by
  rcases hform with htwo | ⟨e, rfl, hstar⟩
  · have hne : es ≠ [] := by
      rintro rfl
      simp at htwo
    refine (goes_join h.trees hne).imp fun ts hts => ?_
    obtain ⟨xs, hp, hxs⟩ := hts.commas true fun _ => htwo
    obtain ⟨es', rfl, hes⟩ := made_of_forall₂ hxs
    exact ⟨_, .indices hp, _, es', rfl, hes⟩
  · cases h with
    | @cons _ text _ _ htext hnil =>
      cases hnil
      refine GoesIn.imp htext ?_
      rintro ts ⟨e', hp, he⟩
      exact ⟨_, .starredIndex hp (hstar e' he), _, _, rfl, .cons he .nil⟩

theorem Legible.walrus {text id} (h : Legible d Level.test point text.toList Q)
    (hid : isName id = true) (hd : 8 ≤ d.minor) :
    Legible d Level.atom true ("(" ++ (id ++ " := " ++ text) ++ ")").toList
      (fun e => ∃ span inner v, e = .named span (.name inner id .store) v ∧ Q v) := by
  have htoList : (id ++ " := " ++ text).toList
      = id.toList ++ ' ' :: (":=".toList ++ ' ' :: text.toList) := by
    simp
  have hname := fun bs => (goes_name hid bs).seq
    (goes_between (goes_opBlank ":=" (by decide) bs) (h.blunt.goes bs)) fun rest _ =>
      (endsExpr_of_mem (by decide) _ : EndsExpr true _).word
  refine .enclosed isPair_round (htoList ▸ hname) ?_
  rintro o _ c ho ⟨_, _, rfl, ⟨n, rfl, hn⟩, _, us, rfl, ⟨a, rfl, ha⟩, e, hp, he⟩ hc
  have hnamed := Phrase.named hn ha hp hd
  exact ⟨_, .group (.inl rfl) ho hnamed hc, _, _, e, rfl, he⟩

end Parts

/-! ## Brackets where they are needed -/

section Brackets

variable {d : Dialect} {level own : Nat} {point : Bool} {text : List Char} {Q : Expr → Prop}

theorem Legible.place (h : Legible d Level.atom true text Q) (htest : Level.test ≤ level)
    (hatom : level ≤ Level.atom) : Legible d level point text Q := by
  have hplaced := h.loosen htest hatom (Nat.le_refl _)
  cases point with
  | true => exact hplaced
  | false => exact hplaced.blunt

/-- A text of its own level can stand everywhere, with brackets where they are needed. -/
theorem Legible.bracketIf {text} (h : Legible d own false text.toList Q)
    (hown : Level.test ≤ own ∧ own < Level.atom) (htest : Level.test ≤ level)
    (hatom : level ≤ Level.atom) (hpoint : point = true → level = Level.atom) :
    Legible d level point (Syntax.bracketIf level own text).toList Q := by
  unfold Syntax.bracketIf
  split
  · exact (h.group hown.1 (Nat.le_of_lt hown.2)).place htest hatom
  · next hlevel =>
    obtain rfl : point = false := by
      cases point with
      | false => rfl
      | true => exact absurd (hpoint rfl ▸ hown.2) hlevel
    exact h.loosen htest (Nat.le_of_not_lt hlevel) (Nat.le_of_lt hown.2)

end Brackets

end TypeStub.Syntax
