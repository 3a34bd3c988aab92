import TypeStub.Proofs.Grammar.Accepting
import TypeStub.Proofs.Grammar.Edges
import TypeStub.Proofs.Grammar.Soundness
import TypeStub.Proofs.Lexing.Scanning
/-!
# Displays, arguments and subscripts are read

Every atom, argument list and subscript of the grammar is read by the rule for its form, with the
tree it stands for, as long as what follows does not continue it. The expressions within are
shorter, so all that is asked of the rules for expressions is that they read phrases up to a length.

How the proof goes: a rule looks at the next tokens to tell the forms apart, so for each form it is
shown what its phrases start with and what may stand behind them (`Ends`, `ListEnd`, `ArgumentEnd`);
then the rule takes the tokens of the phrase one after the other.

Left out are strings with expressions in braces, whose texts are read to a depth that the number of
tokens does not bound, and what has no place in types and conditions: anonymous functions,
comprehensions, `await` and `yield`. No token of a `Below` phrase introduces one of these.
-/

namespace TypeStub.Syntax

open Parse

variable {d : Dialect} {r : Rules} {n : Nat} {ts us rest : List Token} {e : Expr}

/-! ## How many tokens the rules reach -/

/-- Fewer than `n` tokens, all of them plain. -/
structure Below (n : Nat) (ts : List Token) : Prop where
  length : ts.length < n
  plain : ∀ t ∈ ts, t.kind.isPlain = true

namespace Below

theorem left (h : Below n (ts ++ us)) : Below n ts where
  length := by
    have hlen := h.length
    rw [List.length_append] at hlen
    omega
  plain t ht := h.plain t (List.mem_append_left us ht)

theorem right (h : Below n (ts ++ us)) : Below n us where
  length := by
    have hlen := h.length
    rw [List.length_append] at hlen
    omega
  plain t ht := h.plain t (List.mem_append_right ts ht)

/-- Behind a token one level of rules less is enough. -/
theorem tail {t} (h : Below (n + 1) (t :: ts)) : Below n ts where
  length := Nat.lt_of_succ_lt_succ h.length
  plain u hu := h.plain u (List.mem_cons_of_mem t hu)

theorem none (h : Below n ts) : Below n [] where
  length := Nat.zero_lt_of_lt h.length
  plain := nofun

theorem drop {t} (h : Below n (t :: ts)) : Below n ts where
  length := Nat.lt_of_succ_lt h.length
  plain u hu := h.plain u (List.mem_cons_of_mem t hu)

theorem no_word {t word} (h : Below n ts) (ht : t ∈ ts) (hkind : t.kind = .keyword word)
    (hword : word ∈ outerWords) : False := by
  have hplain := h.plain t ht
  simp [hkind, TokenKind.isPlain, hword] at hplain

end Below

/-- The rule reads every expression of the level that has fewer than `n` tokens. -/
def CompleteAt (d : Dialect) (n k : Nat) (p : Parse Expr) : Prop :=
  ∀ {ts rest : List Token} {e : Expr}, Spells d (.expr k) ts e → Below n ts → Stops k rest →
    Accepts p ts rest e

/-- What is known of the rules that other rules call. -/
class RulesComplete (d : outParam Dialect) (n : outParam Nat) (r : Rules) : Prop where
  dialect : r.dialect = d
  expression : CompleteAt d n Level.test r.expression
  disjunction : CompleteAt d n Level.or r.disjunction
  inversion : CompleteAt d n Level.not r.inversion
  bitOr : CompleteAt d n Level.bitOr r.bitOr
  factor : CompleteAt d n Level.factor r.factor

/-- What may stand behind an expression in a list: nothing that continues it or gives it a name. -/
structure Ends (rest : List Token) : Prop where
  stops : Stops Level.test rest
  unnamed : headKind rest ≠ .op ":="

variable [hr : RulesComplete d n r] {t c o : Token} {kind : TokenKind} {s : Input} {f : Form}
  {E : List Token → Prop}
  {p : Parse Expr} {α : Type} {tr vs : List Token} {es : List Expr} {xs : List Tree}
  {cs : List (Clause Expr)} {literals : List (StringToken × Span)}

theorem ends_cons (ht : t.kind = kind) (h : followLevel kind = 0) (hne : kind ≠ .op ":=") :
    Ends (t :: rest) where
  stops := stops_cons ht (by rw [h]; decide)
  unnamed := by rwa [headKind_cons, ht]

/-! ## Small parts -/

/-- A token that continues nothing does not stand behind the first name of an expression. -/
theorem Phrase.second_ne {k} (h : Spells d (.expr k) ts e) (hkind : followLevel kind = 0)
    (hrest : headKind rest ≠ kind) {id} (hid : headKind (ts ++ rest) = .name id) :
    secondKind (ts ++ rest) ≠ kind := by
  obtain ⟨t, us, rfl⟩ := List.exists_cons_of_ne_nil (h.ne_nil rfl)
  rw [List.cons_append, secondKind_eq]
  rcases h.nameFollowed t id us rfl hid with rfl | hfollow
  · exact hrest
  · intro hsame
    have hne : us ≠ [] := by
      rintro rfl
      exact hrest hsame
    rw [headKind_append hne] at hsame
    rw [hsame, hkind] at hfollow
    have hlevel : 0 < (Form.expr k).level := Nat.lt_of_lt_of_le (by decide) (Nat.le_max_left _ k)
    exact absurd hfollow (Nat.not_le.2 hlevel)

theorem namedExpression_accepts (h : Spells d .named ts e)
    (hn : Below n ts) (hend : Ends rest) : Accepts (namedExpression r) ts rest e := by
  intro s hs
  cases h with
  | @named t a id ts e ht ha he hminor =>
    have hv := hr.expression he hn.drop.drop hend.stops
    rw [List.cons_append, List.cons_append] at hs
    rw [namedExpression, peek_bind, peekSecond_bind, hs]
    simp only [headKind_cons, secondKind_cons, ht, ha, here_bind]
    rw [skip_bind hs ht rfl, spanFrom_bind, skip_next ha rfl, hv.next,
      require_bind, hr.dialect, if_neg (Nat.not_lt.2 hminor),
      Input.spanFrom_after (show s.tokens = [t] ++ a :: (ts ++ rest) from hs) (by simp)]
    exact finish hs (by simp) fun span => Expr.named span (.name t.span id .store) e
  | unnamed h =>
    rw [namedExpression_eq_expression]
    · exact hr.expression h hn hend.stops s hs
    · intro id hid
      rw [hs] at hid ⊢
      exact h.second_ne rfl hend.unnamed hid

/-- The rule reads every phrase of the form that has fewer than `n` tokens, in front of what `E`
allows. -/
def CompleteFor (d : Dialect) (n : Nat) (f : Form) (E : List Token → Prop) (p : Parse Expr) :
    Prop :=
  ∀ {ts rest : List Token} {e : Expr}, Spells d f ts e → Below n ts → E rest →
    Accepts p ts rest e

theorem starred_accepts {start operand} (hstart : start = s.place)
    (hs : s.tokens = t :: (ts ++ rest)) (hoperand : Accepts operand ts rest e) :
    starred start operand (s.after [t] (ts ++ rest))
      = some (.starred (spanOf (t :: ts)) e, s.after (t :: ts) rest) := by
  subst hstart
  rw [starred, hoperand.next]
  exact finish hs (by simp) (Expr.starred · e)

theorem starOr_accepts (hp : CompleteFor d n f E p)
    (hstart : ∀ {ts e}, Spells d f ts e → ts ≠ [] ∧ headKind ts ≠ .op "*")
    (hE : ∀ {rest}, E rest → Stops Level.bitOr rest) :
    CompleteFor d n (.starOr f) E (starExpression r p) := by
  intro ts rest e h hn hrest s hs
  rw [starExpression, here_bind]
  cases h with
  | starred ht he =>
    rw [accept_true hs ht rfl]
    exact starred_accepts rfl hs (hr.bitOr he hn.drop (hE hrest))
  | unstarred h =>
    obtain ⟨hne, hhead⟩ := hstart h
    rw [accept_false hs (by rwa [headKind_append hne])]
    exact hp h hn hrest s hs

theorem Phrase.named_ne_star (h : Spells d .named ts e) :
    ts ≠ [] ∧ headKind ts ≠ .op "*" := by
  refine ⟨h.ne_nil rfl, fun hstar => ?_⟩
  have hstart := h.named_start
  rw [hstar] at hstart
  exact absurd hstart (by decide)

theorem element_accepts : CompleteFor d n .element Ends (starNamedExpression r) :=
  starOr_accepts (fun h hn hend => namedExpression_accepts h hn hend)
    Phrase.named_ne_star fun h => h.stops.mono (by decide)

/-! ## Items of loops -/

theorem Phrase.toChain {g : α → Tree} :
    ∀ {as : List α} {ts : List Token}, Phrase d (.many f) ts (as.map g) →
      Chain (fun ts a => Phrase d f ts [g a]) ts as
  | [], _, h => by
    cases h
    exact .nil
  | _ :: _, _, h => by
    cases h with
    | manyCons hx hxs => exact .cons hx hxs.toChain

theorem Chain.eachBelow {R : List Token → α → Prop} {as} (h : Chain R ts as)
    (hn : Below n ts) : Chain (fun ts a => Below n ts ∧ R ts a) ts as := by
  induction h with
  | nil => exact .nil
  | cons hR _ ih => exact .cons ⟨hn.left, hR⟩ (ih hn.right)

theorem Chain.imp {R R' : List Token → α → Prop} {as} (h : Chain R ts as)
    (hR : ∀ ts a, R ts a → R' ts a) : Chain R' ts as := by
  induction h with
  | nil => exact .nil
  | cons h _ ih => exact .cons (hR _ _ h) ih

/-- Pieces behind a token, each of them within reach. -/
theorem Phrase.behindChain {piece} {g : α → Tree} {as}
    (hpiece : ∀ {us a}, Phrase d piece us [g a] →
      ∃ t vs, us = t :: vs ∧ t.kind = kind ∧ Phrase d f vs [g a])
    (h : Phrase d (.many piece) ts (as.map g)) (hn : Below n ts) :
    Chain (Behind kind fun ts a => Below n ts ∧ Phrase d f ts [g a]) ts as := by
  refine (h.toChain.eachBelow hn).imp fun us a hus => ?_
  obtain ⟨hbelow, hus⟩ := hus
  obtain ⟨t, vs, rfl, ht, ha⟩ := hpiece hus
  exact ⟨t, vs, rfl, ht, hbelow.drop, ha⟩

theorem behind_accepts {piece} (hk : isLayout kind = false) (hp : CompleteFor d n f E p)
    (hpiece : ∀ {us e}, Spells d piece us e →
      ∃ t vs, us = t :: vs ∧ t.kind = kind ∧ Spells d f vs e)
    (hmore : ∀ (t : Token) more, t.kind = kind → E (t :: more)) (hE : E rest)
    (hstop : headKind rest ≠ kind) (h : Phrase d (.many piece) ts (es.map .expr))
    (hn : Below n ts) : Accepts
      (many do
        if ← accept kind then
          let a ← p
          return some a
        else return none) ts rest es := by
  refine many_accepts (B := E) ?_ ?_ hE ?_ (h.behindChain hpiece hn)
  · rintro us more a ⟨t, vs, rfl, ht, hbelow, ha⟩ hE'
    refine ⟨by simp, fun s hs => ?_⟩
    rw [List.cons_append] at hs
    rw [accept_bind_true hs ht hk, if_pos rfl, (hp ha hbelow hE').next, pure_apply]
    rfl
  · rintro us more a ⟨t, vs, rfl, ht, -⟩
    exact hmore t _ ht
  · intro s hs
    rw [List.nil_append] at hs
    rw [accept_bind_false (by rwa [hs]), ← hs]
    rfl

/-! ## Lists of elements -/

/-- What a list is made of, apart from its end: elements that do not look like its end, and commas
that do not continue them. -/
structure ListOf (d : Dialect) (n : Nat) (ends : TokenKind → Bool) (f : Form)
    (E : List Token → Prop) (g : α → Tree) (p : Parse α) : Prop where
  element : ∀ {us more : List Token} {a : α}, Phrase d f us [g a] → Below n us → E more →
    Accepts p us more a
  start : ∀ {us : List Token} {a : α}, Phrase d f us [g a] → us ≠ [] ∧
    ends (headKind us) = false
  comma : ∀ {t : Token} {more : List Token}, t.kind = .op "," → E (t :: more)

theorem ListOf.further {ends : TokenKind → Bool} {g : α → Tree} {p as}
    (hp : ListOf d n ends f E g p) (h : Phrase d (.many (.further f)) ts (as.map g))
    (hn : Below n ts) (hE : E rest)
    (hstop : headKind rest = .op "," → ends (secondKind rest) = true) : Accepts
      (many do
        if ← atOp "," then
          if ends (← peekSecond) then return none
          skip
          let a ← p
          return some a
        else return none) ts rest as := by
  have hpiece : ∀ {us a}, Phrase d (.further f) us [g a] →
      ∃ t vs, us = t :: vs ∧ t.kind = .op "," ∧ Phrase d f vs [g a] := by
    intro us a h
    cases h with
    | further ht hx => exact ⟨_, _, rfl, ht, hx⟩
  refine many_accepts (B := E) ?_ ?_ hE ?_ (h.behindChain hpiece hn)
  · rintro us more a ⟨t, vs, rfl, ht, hbelow, ha⟩ hmore
    refine ⟨by simp, fun s hs => ?_⟩
    obtain ⟨hne, hhead⟩ := hp.start ha
    rw [List.cons_append] at hs
    rw [at?_bind, hs, headKind_cons, ht, beq_self_eq_true, if_pos rfl, peekSecond_bind, hs,
      secondKind_eq, headKind_append hne, hhead]
    simp only [Bool.false_eq_true, if_false]
    rw [skip_bind hs ht rfl, (hp.element ha hbelow hmore).next, pure_apply]
    rfl
  · rintro us more a ⟨t, vs, rfl, ht, -⟩
    exact hp.comma ht
  · intro s hs
    rw [List.nil_append] at hs
    rw [at?_bind, hs]
    by_cases hk : headKind rest = .op ","
    · rw [hk, beq_self_eq_true, if_pos rfl, peekSecond_bind, hs, hstop hk, if_pos rfl]
      rw [← hs]
      rfl
    · rw [if_neg (by simpa using hk), ← hs]
      rfl

/-- What stands behind a list: its end, which is no comma. -/
structure ListEnd (ends : TokenKind → Bool) (E : List Token → Prop) (rest : List Token) :
    Prop where
  follows : E rest
  closes : ends (headKind rest) = true
  noComma : headKind rest ≠ .op ","

theorem listEnd_cons {ends : TokenKind → Bool} (ht : t.kind = kind) (hE : E (t :: rest))
    (hclose : ends kind = true) (hcomma : kind ≠ .op ",") : ListEnd ends E (t :: rest) where
  follows := hE
  closes := by rw [headKind_cons, ht, hclose]
  noComma := by rwa [headKind_cons, ht]

theorem trailing_next {β : Type} {ends : TokenKind → Bool} {loop as}
    (hcomma : ∀ {t : Token} {more : List Token}, t.kind = .op "," → E (t :: more))
    (hloop : ∀ {rest}, E rest → (headKind rest = .op "," → ends (secondKind rest) = true) →
      Accepts loop us rest as) (htr : Trailing tr) (hrest : ListEnd ends E rest)
    (k : List α → Bool → Parse β) :
    (do let as ← loop; let closed ← acceptOp ","; k as closed) (s.after ts (us ++ tr ++ rest))
      = k as (!tr.isEmpty) (s.after (ts ++ (us ++ tr)) rest) := by
  rcases htr with rfl | ⟨c, rfl, hc⟩
  · rw [List.append_nil, (hloop hrest.follows fun h => absurd h hrest.noComma).next]
    exact accept_bind_false (by simpa using hrest.noComma) _
  · rw [List.append_assoc, List.singleton_append,
      (hloop (hcomma hc) fun _ => by rw [secondKind_eq, hrest.closes]).next]
    refine (accept_bind_true (Input.after_tokens ..) hc rfl _).trans ?_
    rw [Input.after_append, List.append_assoc]
    rfl

/-- In front of `rest` the rule reads the phrase as the further elements of a list. -/
theorem elementsUntil_accepts {ends : TokenKind → Bool} (hp : ListOf d n ends f E .expr p)
    (h : Phrase d (.many (.further f)) us (es.map .expr)) (htr : Trailing tr) (hn : Below n us)
    (hrest : ListEnd ends E rest) :
    Accepts (elementsUntil ends p) (us ++ tr) rest (es, !(us ++ tr).isEmpty) := by
  have hbool : es.isEmpty = us.isEmpty := by
    generalize hxs : es.map Tree.expr = xs at h
    cases h with
    | manyNil =>
      rw [List.map_eq_nil_iff.1 hxs]
      rfl
    | manyCons hx _ =>
      cases hx
      cases es with
      | nil => cases hxs
      | cons => rfl
  intro s hs
  have hstart : s = s.after [] (us ++ tr ++ rest) := by rw [← hs, Input.after_nil]
  refine (congrArg (elementsUntil ends p) hstart).trans ?_
  rw [elementsUntil, trailing_next hp.comma (hp.further h hn) htr hrest, pure_apply, hbool]
  cases us <;> simp

theorem Phrase.commas_parts {needed} {g : α → Tree} {as}
    (h : Phrase d (.commas f needed) ts (as.map g)) :
    ∃ a as' us vs tr, as = a :: as' ∧ ts = us ++ (vs ++ tr) ∧ Phrase d f us [g a] ∧
      Phrase d (.many (.further f)) vs (as'.map g) ∧ Trailing tr ∧
      (needed = true → vs ++ tr ≠ []) := by
  generalize hxs : as.map g = xs at h
  cases h with
  | commas hx hmany htr hneeded =>
    cases as with
    | nil => cases hxs
    | cons a as' =>
      cases hxs
      exact ⟨a, as', _, _, _, rfl, List.append_assoc .., hx, hmany, htr, hneeded⟩

theorem ListOf.follows {g : α → Tree} {as : List α}
    (hcomma : ∀ {t : Token} {more : List Token}, t.kind = .op "," → E (t :: more))
    (h : Phrase d (.many (.further f)) us (as.map g)) (htr : Trailing tr)
    (hE : us ++ tr = [] → E rest) : E (us ++ tr ++ rest) := by
  generalize as.map g = xs at h
  cases h with
  | manyNil =>
    rcases htr with rfl | ⟨c, rfl, hc⟩
    · exact hE rfl
    · exact hcomma hc
  | manyCons hx _ =>
    cases hx with
    | further ht _ => exact hcomma ht

theorem elementOrTuple_accepts (hp : ListOf d n endsList f E .expr p) (h : Spells d (.list f) ts e)
    (hn : Below n ts) (hrest : ListEnd endsList E rest) : Accepts (elementOrTuple p) ts rest e := by
  intro s hs
  rw [elementOrTuple, here_bind, moreElements]
  cases h with
  | single h =>
    have hmore : Accepts (elementsUntil endsList p) [] rest ([], false) :=
      elementsUntil_accepts hp .manyNil (.inl rfl) hn.none hrest
    rw [(hp.element h hn hrest.follows).bind hs, hmore.nextNil]
    simp only [Bool.false_eq_true, if_false, pure_apply]
  | several h =>
    obtain ⟨e, es, us, vs, tr, rfl, rfl, he, hmany, htr, hneeded⟩ := h.commas_parts
    have hmore := elementsUntil_accepts hp hmany htr hn.right.left hrest
    rw [(hp.element he hn.left (ListOf.follows hp.comma hmany htr fun _ => hrest.follows)).bind
      (by rw [hs, List.append_assoc]), hmore.next]
    have hcomma : (vs ++ tr).isEmpty = false := by simpa using hneeded rfl
    simp only [hcomma, Bool.not_false, if_true]
    exact finish hs (by simp [(hp.start he).1]) (Expr.tuple · (e :: es))

theorem starOr_listOf (hp : CompleteFor d n (.starOr f) E p)
    (hstart : ∀ {us e}, Spells d f us e → us ≠ [] ∧ Level.test ≤ startLevel (headKind us))
    (hcomma : ∀ {t : Token} {more : List Token}, t.kind = .op "," → E (t :: more)) :
    ListOf d n endsList (.starOr f) E .expr p where
  element := hp
  start h := by
    cases h with
    | starred ht _ =>
      refine ⟨by simp, ?_⟩
      rw [headKind_cons, ht]
      rfl
    | unstarred h => exact (hstart h).imp_right endsList_of_start
  comma := hcomma

theorem element_listOf : ListOf d n endsList .element Ends .expr (starNamedExpression r) :=
  starOr_listOf element_accepts (fun h => ⟨h.ne_nil rfl, h.named_start⟩)
    fun ht => ends_cons ht rfl (by decide)

/-! ## No clauses -/

/-- A clause has a word that is left out here. -/
theorem Phrase.clauses_none (h : Phrase d (.many .clause) ts (cs.map .clause)) (hn : Below n ts) :
    cs = [] := by
  cases cs with
  | nil => rfl
  | cons =>
    cases h with
    | manyCons hx _ =>
      cases hx with
      | @clause w ts us vs i isAsync target iter conditions hw =>
        obtain ⟨t, ht, hfor⟩ : ∃ t ∈ w, t.kind = .keyword "for" := by
          have hmem : .keyword "for" ∈ w.map (·.kind) := by
            cases isAsync with
            | true => rw [hw.2]; decide
            | false => rw [show w.map (·.kind) = _ from hw]; decide
          simpa using hmem
        exact (hn.no_word (by simp [ht]) hfor (by decide)).elim

/-- What stands behind the clauses of a comprehension. -/
structure ClausesEnd (rest : List Token) : Prop where
  noFor : headKind rest ≠ .keyword "for"
  noAsync : headKind rest ≠ .keyword "async"

theorem clausesEnd_cons (ht : t.kind = kind) (hfor : kind ≠ .keyword "for")
    (hasync : kind ≠ .keyword "async") : ClausesEnd (t :: rest) where
  noFor := by rwa [headKind_cons, ht]
  noAsync := by rwa [headKind_cons, ht]

theorem comprehensionClause_stops (hrest : ClausesEnd rest) :
    Accepts (comprehensionClause r) [] rest none := by
  intro s hs
  rw [List.nil_append] at hs
  rw [comprehensionClause, peek_bind, peekSecond_bind, hs]
  have hfor := hrest.noFor
  have hasync := hrest.noAsync
  generalize headKind rest = k at hfor hasync
  generalize secondKind rest = k'
  split
  · exact absurd rfl hasync
  · exact absurd rfl hfor
  · rw [← hs]
    rfl

theorem comprehensionClauses_none (hrest : ClausesEnd rest) :
    Accepts (comprehensionClauses r) [] rest [] :=
  many_accepts (R := fun _ _ => False) (B := fun _ => True) (fun _ _ _ => False.elim)
    (fun _ _ _ => False.elim) trivial (comprehensionClause_stops hrest) .nil

/-! ## Atoms -/

/-- Behind the first element of a list with a comma, a comma is next. -/
theorem Phrase.further_head {g : α → Tree} {as : List α}
    (h : Phrase d (.many (.further f)) us (as.map g)) (htr : Trailing tr) (hne : us ++ tr ≠ []) :
    headKind (us ++ tr ++ rest) = .op "," :=
  ListOf.follows (E := fun rest => headKind rest = .op ",") id h htr fun h => absurd h hne

theorem Phrase.named_ne (h : Spells d .named ts e) (hkind : startLevel kind = 0) :
    headKind (ts ++ rest) ≠ kind := by
  rw [headKind_append (h.ne_nil rfl)]
  rintro rfl
  exact absurd (hkind ▸ h.named_start) (by decide)

theorem Phrase.element_ne (h : Spells d .element ts e) (hkind : startLevel kind = 0)
    (hstar : kind ≠ .op "*") : headKind (ts ++ rest) ≠ kind := by
  cases h with
  | starred ht _ => exact fun h => hstar (h.symm.trans ht)
  | unstarred h => exact h.named_ne hkind

def Form.isUnstarred : Form → Bool
  | .atom | .expr _ | .named | .yield => true
  | _ => false

theorem concatLiterals_unstarred {span} (h : concatLiterals r span literals = some e) :
    e.isStarred = false := by
  unfold concatLiterals at h
  split at h
  · cases h
  · split at h
    · obtain ⟨parts, -, h⟩ := Option.bind_eq_some_iff.1 h
      cases h
      rfl
    · split at h
      · cases h
      · obtain ⟨pieces, -, h⟩ := Option.bind_eq_some_iff.1 h
        split at h <;> obtain rfl := Option.some.inj h <;> rfl

theorem Phrase.unstarredTree (h : Phrase d f ts xs) :
    f.isUnstarred = true → ∀ e, xs = [.expr e] → e.isStarred = false := by
  induction h with
  | strings h =>
    rintro - e ⟨⟩
    exact concatLiterals_unstarred h
  | group hf _ _ _ ih => rcases hf with rfl | rfl <;> exact fun _ => ih rfl
  | unnamed _ ih | atom _ ih | lift _ _ _ ih => exact fun _ => ih rfl
  | _ => simp [Form.isUnstarred, Expr.isStarred]

/-- A closing bracket ends what stands before it. -/
structure Closes (c : Token) : Prop where
  ends : ∀ {rest : List Token}, Ends (c :: rest)
  list : ∀ {rest : List Token}, ListEnd endsList Ends (c :: rest)
  clauses : ∀ {rest : List Token}, ClausesEnd (c :: rest)

theorem closes_of_kind {text} (hc : c.kind = .op text)
    (h : text = ")" ∨ text = "]" ∨ text = "\x7d") : Closes c := by
  have hends {rest : List Token} : Ends (c :: rest) := by
    rcases h with rfl | rfl | rfl <;> exact ends_cons hc rfl (by decide)
  refine ⟨hends, ?_, ?_⟩
  · intro rest
    rcases h with rfl | rfl | rfl <;> exact listEnd_cons hc hends rfl (by decide)
  · intro rest
    rcases h with rfl | rfl | rfl <;> exact clausesEnd_cons hc (by decide) (by decide)

section Tails

variable {g : α → Tree} {as : List α} (hc : Closes c)
  (h : Phrase d (.many (.further f)) us (as.map g)) (htr : Trailing tr)

include hc h htr

/-- An element of a list in brackets has ended in front of the further ones. -/
theorem Closes.behind : Ends (us ++ tr ++ c :: rest) :=
  ListOf.follows (fun ht => ends_cons ht rfl (by decide)) h htr fun _ => hc.ends

theorem Closes.noClauses : Accepts (comprehensionClauses r) [] (us ++ tr ++ c :: rest) [] :=
  comprehensionClauses_none
    (ListOf.follows (fun ht => clausesEnd_cons ht (by decide) (by decide)) h htr
      fun _ => hc.clauses)

end Tails

theorem empty_accepts {opening closing} {p : Place → Parse Expr} (ho : o.kind = .op opening)
    (hc : c.kind = .op closing) (g : Span → Expr) : Accepts
      (do
        let start ← here
        expectOp opening
        if ← acceptOp closing then return g (← spanFrom start)
        p start) [o, c] rest (g (spanOf [o, c])) := by
  intro s hs
  simp only [List.cons_append, List.nil_append] at hs
  rw [here_bind, expect_bind hs ho rfl, accept_yes hc rfl]
  exact finish hs (by simp) g

/-- What round brackets hold, if it is no `yield` and not nothing. -/
theorem parenthesized_first (ho : o.kind = .op "(") (hs : s.tokens = o :: (ts ++ rest))
    (he : Spells d .element ts e) (hfirst : Accepts (starNamedExpression r) ts rest e) :
    parenthesized r s = (do
      if ← atOp "," then
        let (rest, _) ← moreElements (starNamedExpression r)
        expectOp ")"
        return Expr.tuple (← spanFrom s.place) (e :: rest)
      if e.isStarred then failure
      let clauses ← comprehensionClauses r
      expectOp ")"
      if clauses.isEmpty then return e
      else return Expr.generator (← spanFrom s.place) e clauses) (s.after (o :: ts) rest) := by
  have hyield : headKind (ts ++ rest) ≠ .keyword "yield" := he.element_ne rfl (by decide)
  rw [parenthesized, here_bind, expect_bind hs ho rfl, accept_no (he.element_ne rfl (by decide)),
    at?_bind, Input.after_tokens, if_neg (by simpa using hyield), hfirst.next]
  rfl

theorem parenthesized_tuple (ho : o.kind = .op "(")
    (h : Phrase d (.commas .element true) ts (es.map .expr)) (hc : c.kind = .op ")")
    (hn : Below n ts) : Accepts (parenthesized r) (o :: (ts ++ [c])) rest
      (.tuple (spanOf (o :: (ts ++ [c]))) es) := by
  obtain ⟨e, es, us, vs, tr, rfl, rfl, he, hmany, htr, hneeded⟩ := h.commas_parts
  have hclose := closes_of_kind hc (.inl rfl)
  intro s hs
  have hs' : s.tokens = o :: (us ++ (vs ++ tr ++ c :: rest)) := by simpa using hs
  have hends : Ends (vs ++ tr ++ c :: rest) := hclose.behind hmany htr
  rw [parenthesized_first ho hs' he (element_accepts he hn.left hends), at?_bind,
    Input.after_tokens, hmany.further_head htr (hneeded rfl), beq_self_eq_true, if_pos rfl,
    moreElements, (elementsUntil_accepts element_listOf hmany htr hn.right.left
      hclose.list).next]
  simp only
  rw [expect_next hc rfl]
  exact finish hs (by simp) (Expr.tuple · (e :: es))

theorem parenthesized_group (ho : o.kind = .op "(") (he : Spells d .named ts e)
    (hc : c.kind = .op ")") (hn : Below n ts) :
    Accepts (parenthesized r) (o :: (ts ++ [c])) rest e := by
  have hclose := closes_of_kind hc (.inl rfl)
  intro s hs
  have hs' : s.tokens = o :: (ts ++ c :: rest) := by simpa using hs
  have hcomma : headKind (c :: rest) ≠ .op "," := by
    rw [headKind_cons, hc]
    decide
  rw [parenthesized_first ho hs' (.unstarred he) (element_accepts (.unstarred he) hn hclose.ends),
    at?_bind, Input.after_tokens, if_neg (by simpa using hcomma)]
  simp only [Bool.false_eq_true, if_false, he.unstarredTree rfl e rfl]
  rw [(comprehensionClauses_none hclose.clauses).nextNil, expect_next hc rfl]
  rfl

theorem bracketed_list (ho : o.kind = .op "[")
    (h : Phrase d (.commas .element false) ts (es.map .expr)) (hc : c.kind = .op "]")
    (hn : Below n ts) :
    Accepts (bracketed r) (o :: (ts ++ [c])) rest (.list (spanOf (o :: (ts ++ [c]))) es) := by
  obtain ⟨e, es, us, vs, tr, rfl, rfl, he, hmany, htr, -⟩ := h.commas_parts
  have hclose := closes_of_kind hc (.inr (.inl rfl))
  intro s hs
  have hs' : s.tokens = o :: (us ++ (vs ++ tr ++ c :: rest)) := by simpa using hs
  have hends : Ends (vs ++ tr ++ c :: rest) := hclose.behind hmany htr
  have hnone : Accepts (comprehensionClauses r) [] (vs ++ tr ++ c :: rest) [] :=
    hclose.noClauses hmany htr
  have hmore : Accepts _ (vs ++ tr) (c :: rest) _ :=
    elementsUntil_accepts (element_listOf (r := r)) hmany htr hn.right.left hclose.list
  rw [bracketed, here_bind, expect_bind hs' ho rfl, accept_no (he.element_ne rfl (by decide)),
    (element_accepts he hn.left hends).next]
  -- Behind a starred element the rule looks for no clauses, behind another one it finds none.
  split
  case' isTrue => rw [pure_bind]
  case' isFalse => rw [hnone.nextNil]
  all_goals
    simp only [List.isEmpty_nil, if_true, moreElements]
    rw [hmore.next]
    simp only
    rw [expect_next hc rfl]
    exact finish hs (by simp) (Expr.list · (e :: es))

theorem dictEntry_accepts {entry} (h : Phrase d .entry ts [.entry entry])
    (hn : Below n ts) (hrest : Stops Level.test rest) : Accepts (dictEntry r) ts rest entry := by
  intro s hs
  rw [dictEntry]
  cases h with
  | @plainEntry m ts us k v hk hm hv =>
    simp only [List.cons_append, List.append_assoc] at hs
    rw [accept_false hs ((Phrase.unnamed hk).named_ne rfl),
      (hr.expression hk hn.left (stops_cons hm (by decide))).bind hs, expect_next hm rfl,
      (hr.expression hv hn.right.drop hrest).next, pure_apply]
    simp only [List.append_assoc, List.cons_append, List.nil_append]
  | unpackedEntry ht hv =>
    rw [List.cons_append] at hs
    rw [accept_true hs ht rfl, (hr.bitOr hv hn.drop (hrest.mono (by decide))).next, pure_apply]
    rfl

theorem Phrase.entry_start (h : Phrase d .entry ts xs) :
    ts ≠ [] ∧ endsList (headKind ts) = false := by
  cases h with
  | plainEntry hk hm =>
    refine ⟨by simp, ?_⟩
    rw [headKind_append (hk.ne_nil rfl)]
    exact endsList_of_start hk.expr_start.1
  | unpackedEntry ht _ =>
    refine ⟨by simp, ?_⟩
    rw [headKind_cons, ht]
    rfl

theorem dictRest_accepts {first entries}
    (h : Phrase d (.many (.further .entry)) us (entries.map .entry)) (htr : Trailing tr)
    (hc : c.kind = .op "\x7d") (hn : Below n us)
    (hs : s.tokens = o :: ts ++ (us ++ tr ++ c :: rest)) :
    dictRest r s.place first (s.after (o :: ts) (us ++ tr ++ c :: rest))
      = some (.dict (spanOf (o :: (ts ++ (us ++ tr) ++ [c]))) (first :: entries),
          s.after (o :: (ts ++ (us ++ tr) ++ [c])) rest) := by
  have hentry : ListOf d n endsList .entry (Stops Level.test) .entry (dictEntry r) :=
    ⟨dictEntry_accepts, Phrase.entry_start, fun ht => stops_cons ht (by decide)⟩
  have hend : ListEnd endsList (Stops Level.test) (c :: rest) :=
    listEnd_cons hc (stops_cons hc (by decide)) rfl (by decide)
  rw [dictRest, trailing_next hentry.comma (hentry.further h hn) htr hend, expect_next hc rfl]
  have hs' : s.tokens = o :: (ts ++ (us ++ tr) ++ [c]) ++ rest := by
    rw [hs]
    simp
  simpa using finish hs' (by simp) fun span => Expr.dict span (first :: entries)

theorem setRest_accepts {first}
    (h : Phrase d (.many (.further .element)) us (es.map .expr)) (htr : Trailing tr)
    (hc : c.kind = .op "\x7d") (hn : Below n us)
    (hs : s.tokens = o :: ts ++ (us ++ tr ++ c :: rest)) :
    setRest r s.place first (s.after (o :: ts) (us ++ tr ++ c :: rest))
      = some (.set (spanOf (o :: (ts ++ (us ++ tr) ++ [c]))) (first :: es),
          s.after (o :: (ts ++ (us ++ tr) ++ [c])) rest) := by
  have hclose := closes_of_kind hc (.inr (.inr rfl))
  rw [setRest, moreElements, (elementsUntil_accepts element_listOf h htr hn hclose.list).next]
  simp only
  rw [expect_next hc rfl]
  have hs' : s.tokens = o :: (ts ++ (us ++ tr) ++ [c]) ++ rest := by
    rw [hs]
    simp
  simpa using finish hs' (by simp) fun span => Expr.set span (first :: es)

def startsNamed : TokenKind → TokenKind → Bool
  | .name _, .op ":=" => true
  | _, _ => false

theorem startsNamed_eq_false {k k'} (h : ∀ id, k = .name id → k' ≠ .op ":=") :
    startsNamed k k' = false := by
  unfold startsNamed
  split
  · exact absurd rfl (h _ rfl)
  · rfl

theorem braced_plain (ho : o.kind = .op "\x7b") (hs : s.tokens = o :: (ts ++ rest))
    (he : Spells d .named ts e) (hfirst : Accepts (namedExpression r) ts rest e) : braced r s = (do
      match startsNamed (headKind (ts ++ rest)) (secondKind (ts ++ rest)), headKind rest with
      | false, .op ":" =>
        skip
        let value ← r.expression
        let clauses ← comprehensionClauses r
        if clauses.isEmpty then dictRest r s.place { key := some e, value }
        else
          expectOp "\x7d"
          return Expr.dictComp (← spanFrom s.place) e value clauses
      | _, _ =>
        let clauses ← comprehensionClauses r
        if clauses.isEmpty then setRest r s.place e
        else
          expectOp "\x7d"
          return Expr.setComp (← spanFrom s.place) e clauses) (s.after (o :: ts) rest) := by
  have hstars : headKind (ts ++ rest) ≠ .op "**" := he.named_ne rfl
  have hstar : headKind (ts ++ rest) ≠ .op "*" := he.named_ne rfl
  rw [braced, here_bind, expect_bind hs ho rfl, accept_no (he.named_ne rfl)]
  simp only [if_false, at?_bind, Input.after_tokens, beq_iff_eq, hstars,
    hstar, peek_bind, peekSecond_bind]
  rw [hfirst.next, peek_bind, Input.after_tokens]
  rfl

theorem braced_element (ho : o.kind = .op "\x7b") (hs : s.tokens = o :: (ts ++ rest))
    (he : Spells d .named ts e) (hfirst : Accepts (namedExpression r) ts rest e)
    (hcolon : headKind rest ≠ .op ":") : braced r s = (do
      let clauses ← comprehensionClauses r
      if clauses.isEmpty then setRest r s.place e
      else
        expectOp "\x7d"
        return Expr.setComp (← spanFrom s.place) e clauses) (s.after (o :: ts) rest) := by
  rw [braced_plain ho hs he hfirst]
  generalize headKind rest = k at hcolon
  generalize startsNamed _ _ = b
  split
  · exact absurd rfl hcolon
  · rfl

theorem braced_key {m} (ho : o.kind = .op "\x7b") (hm : m.kind = .op ":")
    (hs : s.tokens = o :: (ts ++ m :: rest)) (he : Spells d (.expr Level.test) ts e)
    (hfirst : Accepts (namedExpression r) ts (m :: rest) e) : braced r s = (do
      let value ← r.expression
      let clauses ← comprehensionClauses r
      if clauses.isEmpty then dictRest r s.place { key := some e, value }
      else
        expectOp "\x7d"
        return Expr.dictComp (← spanFrom s.place) e value clauses)
        (s.after (o :: (ts ++ [m])) rest) := by
  have hnamed := startsNamed_eq_false fun id (hid : headKind (ts ++ m :: rest) = .name id) =>
    he.second_ne rfl (by rw [headKind_cons, hm]; decide) hid
  rw [braced_plain ho hs (.unnamed he) hfirst, headKind_cons, hm, hnamed]
  refine (skip_next hm rfl _).trans ?_
  rfl

theorem Phrase.further_ne (h : Phrase d (.many (.further .element)) us (es.map .expr))
    (htr : Trailing tr) (hkind : kind ≠ .op ",") (hrest : headKind rest ≠ kind) :
    headKind (us ++ tr ++ rest) ≠ kind :=
  ListOf.follows (E := fun rest => headKind rest ≠ kind)
    (fun ht => by rw [headKind_cons, ht]; exact hkind.symm) h htr fun _ => hrest

theorem braced_dict {entries} (ho : o.kind = .op "\x7b")
    (h : Phrase d (.commas .entry false) ts (entries.map .entry)) (hc : c.kind = .op "\x7d")
    (hn : Below n ts) : Accepts (braced r) (o :: (ts ++ [c])) rest
      (.dict (spanOf (o :: (ts ++ [c]))) entries) := by
  obtain ⟨first, entries, us, vs, tr, rfl, rfl, hfirst, hmany, htr, -⟩ := h.commas_parts
  have hclose := closes_of_kind hc (.inr (.inr rfl))
  have hends : Ends (vs ++ tr ++ c :: rest) := hclose.behind hmany htr
  intro s hs
  cases hfirst with
  | @plainEntry m ts us k v hk hm hv =>
    have hs' : s.tokens = o :: (ts ++ m :: (us ++ (vs ++ tr ++ c :: rest))) := by simpa using hs
    have hnone : Accepts (comprehensionClauses r) [] (vs ++ tr ++ c :: rest) [] :=
      hclose.noClauses hmany htr
    have hkey : Accepts (namedExpression r) ts (m :: (us ++ (vs ++ tr ++ c :: rest))) k :=
      namedExpression_accepts (.unnamed hk) hn.left.left (ends_cons hm rfl (by decide))
    rw [braced_key ho hm hs' hk hkey, (hr.expression hv hn.left.right.drop hends.stops).next,
      hnone.nextNil]
    simp only [List.isEmpty_nil, if_true]
    rw [show o :: (ts ++ [m]) ++ us = o :: (ts ++ m :: us) by simp]
    exact dictRest_accepts hmany htr hc hn.right.left (by simpa using hs)
  | @unpackedEntry t us v ht hv =>
    have hs' : s.tokens = o :: (t :: us ++ (vs ++ tr ++ c :: rest)) := by simpa using hs
    have hhead : headKind (t :: us ++ (vs ++ tr ++ c :: rest)) = .op "**" := ht
    rw [braced, here_bind, expect_bind hs' ho rfl, accept_no (by rw [hhead]; decide)]
    simp only [at?_bind, Input.after_tokens, hhead,
      beq_self_eq_true, if_true]
    rw [(dictEntry_accepts (.unpackedEntry ht hv) hn.left hends.stops).next]
    exact dictRest_accepts hmany htr hc hn.right.left (by simpa using hs)

theorem braced_set (ho : o.kind = .op "\x7b")
    (h : Phrase d (.commas .element false) ts (es.map .expr)) (hc : c.kind = .op "\x7d")
    (hn : Below n ts) :
    Accepts (braced r) (o :: (ts ++ [c])) rest (.set (spanOf (o :: (ts ++ [c]))) es) := by
  obtain ⟨first, es, us, vs, tr, rfl, rfl, hfirst, hmany, htr, -⟩ := h.commas_parts
  have hclose := closes_of_kind hc (.inr (.inr rfl))
  have hends : Ends (vs ++ tr ++ c :: rest) := hclose.behind hmany htr
  intro s hs
  have hs' : s.tokens = o :: (us ++ (vs ++ tr ++ c :: rest)) := by simpa using hs
  have helement := element_accepts (r := r) hfirst hn.left hends
  cases hfirst with
  | @starred _ t us e ht he =>
    have hhead : headKind (t :: us ++ (vs ++ tr ++ c :: rest)) = .op "*" := ht
    rw [braced, here_bind, expect_bind hs' ho rfl, accept_no (by rw [hhead]; decide),
      at?_bind, Input.after_tokens, hhead, if_neg (by decide), at?_bind, Input.after_tokens,
      hhead, if_pos (by decide), helement.next]
    exact setRest_accepts hmany htr hc hn.right.left (by simpa using hs)
  | unstarred hfirst =>
    have hcolon : headKind (vs ++ tr ++ c :: rest) ≠ .op ":" :=
      hmany.further_ne htr (by decide) (by rw [headKind_cons, hc]; decide)
    have hnone : Accepts (comprehensionClauses r) [] (vs ++ tr ++ c :: rest) [] :=
      hclose.noClauses hmany htr
    rw [braced_element ho hs' hfirst (namedExpression_accepts hfirst hn.left hends) hcolon,
      hnone.nextNil]
    simp only [List.isEmpty_nil, if_true]
    exact setRest_accepts hmany htr hc hn.right.left (by simpa using hs)

theorem tokenPieces_plain {r' marked whole span t} (ht : t.isFormatted = false) :
    tokenPieces r marked whole t span = tokenPieces r' marked whole t span := by
  rw [tokenPieces, tokenPieces, ht]
  rfl

theorem mapM_option_congr {α β : Type} {f g : α → Option β} :
    ∀ {as : List α}, (∀ a ∈ as, f a = g a) → as.mapM f = as.mapM g
  | [], _ => rfl
  | a :: as, h => by
    rw [List.mapM_cons, List.mapM_cons, h a List.mem_cons_self,
      mapM_option_congr fun b hb => h b (List.mem_cons_of_mem a hb)]

/-- The value of literals without expressions in braces does not depend on the rules. -/
theorem concatLiterals_plain {r' span} (h : ∀ l ∈ literals, l.1.isFormatted = false) :
    concatLiterals r span literals = concatLiterals r' span literals := by
  cases literals with
  | nil => rfl
  | cons first more =>
    have hpieces (marked : Bool) :
        (first :: more).mapM (fun l => tokenPieces r marked span l.1 l.2)
          = (first :: more).mapM fun l => tokenPieces r' marked span l.1 l.2 :=
      mapM_option_congr fun l hl => tokenPieces_plain (h l hl)
    simp only [concatLiterals, hpieces]

theorem literals_accepts (hrest : ∀ l, headKind rest ≠ .string l) : Accepts
      (many do
        match ← peek with
        | .string literal =>
          let t ← next
          return some (literal, t.span)
        | _ => return none) (literals.map stringToken) rest literals := by
  have hchain : Chain (fun ts l => ts = [stringToken l]) (literals.map stringToken) literals := by
    induction literals with
    | nil => exact .nil
    | cons l ls ih =>
      rw [List.map_cons, ← List.singleton_append]
      exact .cons rfl ih
  refine many_accepts (B := fun _ => True) ?_ (fun _ _ _ _ => trivial) trivial ?_ hchain
  · rintro us more l rfl -
    refine ⟨by simp, fun s hs => ?_⟩
    rw [List.singleton_append] at hs
    have hnext : next s = some (stringToken l, s.after [stringToken l] more) := by
      simp [next, hs, isLayout, stringToken, Input.after]
    rw [peek_bind, hs, headKind_cons]
    exact bind_of_eq hnext
  · intro s hs
    rw [List.nil_append] at hs
    rw [peek_bind, hs]
    generalize headKind rest = k at hrest
    split
    · exact absurd rfl (hrest _)
    · rw [← hs]
      rfl

theorem stringLiterals_accepts {m}
    (h : concatLiterals (rules d m) (spanOf (literals.map stringToken)) literals = some e)
    (hplain : ∀ t ∈ literals.map stringToken, t.kind.isPlain = true)
    (hrest : Stops (Level.atom + 1) rest) :
    Accepts (stringLiterals r) (literals.map stringToken) rest e := by
  have hne : literals ≠ [] := by
    rintro rfl
    cases h
  have hlast : ∀ l, headKind rest ≠ .string l := fun l => hrest.ne (Nat.le_refl _)
  have hformat : ∀ l ∈ literals, l.1.isFormatted = false := by
    intro l hl
    have hplain := hplain _ (List.mem_map_of_mem hl)
    simpa [TokenKind.isPlain, stringToken] using hplain
  intro s hs
  rw [stringLiterals, here_bind]
  refine ((literals_accepts hlast).bind hs _).trans ?_
  rw [spanFrom_bind, Input.spanFrom_after hs (by simpa using hne), concatLiterals_plain hformat, h]
  rfl

/-- A token of its own, read as a constant or a name. -/
theorem tokenAtom_accepts {f : Span → Expr} {k} (hs : s.tokens = [t] ++ rest) (hk : t.kind = k)
    (ht : isLayout k = false) :
    (do skip; return f (← spanFrom s.place)) s = some (f t.span, s.after [t] rest) := by
  rw [skip_bind hs hk ht]
  exact finish hs (by simp) f

/-- Every atom with at most `n` tokens is read. -/
theorem atom_accepts (h : Spells d .atom ts e) (hn : Below (n + 1) ts)
    (hrest : Stops (Level.atom + 1) rest) : Accepts (atom r) ts rest e := by
  intro s hs
  rw [atom, here_bind, peek_bind]
  have hfirst {t us text} (hs : s.tokens = t :: us) (ht : t.kind = .op text) :
      headKind s.tokens = .op text := by rw [hs, headKind_cons, ht]
  cases h with
  | name ht | number ht | ellipsis ht =>
    rw [hs, List.singleton_append, headKind_cons, ht]
    exact tokenAtom_accepts hs ht rfl
  | constant ht hc =>
    rw [hs, List.singleton_append, headKind_cons, ht]
    simp only [hc]
    exact tokenAtom_accepts hs ht rfl
  | @strings m literals _ h =>
    have hstrings := stringLiterals_accepts (r := r) h hn.plain hrest s hs
    cases literals with
    | nil => cases h
    | cons l ls =>
      rw [hs]
      exact hstrings
  | group hf ho he hc =>
    rw [hfirst hs ho]
    rcases hf with rfl | rfl
    · exact parenthesized_group ho he hc hn.tail.left s hs
    · cases he with
      | yieldFrom hy | yieldNothing hy | yieldValue hy =>
        exact (hn.tail.left.no_word List.mem_cons_self hy (by decide)).elim
  | noTuple ho hc =>
    rw [hfirst hs ho]
    exact empty_accepts ho hc (Expr.tuple · []) s hs
  | tuple ho he hc =>
    rw [hfirst hs ho]
    exact parenthesized_tuple ho he hc hn.tail.left s hs
  | noList ho hc =>
    rw [hfirst hs ho]
    exact empty_accepts ho hc (Expr.list · []) s hs
  | list ho he hc =>
    rw [hfirst hs ho]
    exact bracketed_list ho he hc hn.tail.left s hs
  | noDict ho hc =>
    rw [hfirst hs ho]
    exact empty_accepts ho hc (Expr.dict · []) s hs
  | dict ho he hc =>
    rw [hfirst hs ho]
    exact braced_dict ho he hc hn.tail.left s hs
  | set ho he hc =>
    rw [hfirst hs ho]
    exact braced_set ho he hc hn.tail.left s hs
  | generator _ _ hclauses hcs | listComp _ _ hclauses hcs | setComp _ _ hclauses hcs =>
    exact absurd (hclauses.clauses_none hn.tail.left.right) hcs
  | dictComp _ _ _ _ hclauses hcs =>
    exact absurd (hclauses.clauses_none hn.tail.right.drop.left.right) hcs

/-! ## Arguments and subscripts -/

/-- What may stand behind an argument. -/
structure ArgumentEnd (rest : List Token) : Prop extends Ends rest where
  noValue : headKind rest ≠ .op "="

theorem Phrase.second_ne_equals (h : Spells d .named ts e) (hrest : headKind rest ≠ .op "=") {id}
    (hid : headKind (ts ++ rest) = .name id) : secondKind (ts ++ rest) ≠ .op "=" := by
  cases h with
  | named _ ha =>
    rw [List.cons_append, List.cons_append, secondKind_cons, ha]
    decide
  | unnamed h => exact h.second_ne rfl hrest hid

theorem argument_accepts {a st st'}
    (h : Phrase d .argument ts [.argument a]) (hst : st.add a = some st') (hn : Below n ts)
    (hrest : ArgumentEnd rest) : Accepts (argument r st) ts rest st' := by
  intro s hs
  rw [argument, here_bind, peek_bind, peekSecond_bind]
  cases h with
  | positional he =>
    have hstar : headKind s.tokens ≠ .op "*" := hs ▸ he.named_ne rfl
    have hstars : headKind s.tokens ≠ .op "**" := hs ▸ he.named_ne rfl
    have hname : ∀ id, headKind s.tokens = .name id → secondKind s.tokens ≠ .op "=" := by
      rw [hs]
      exact fun id hid => he.second_ne_equals hrest.noValue hid
    generalize headKind s.tokens = k at hstar hstars hname
    generalize secondKind s.tokens = k' at hname
    simp only [ArgState.add] at hst
    split
    · exact absurd rfl hstar
    · exact absurd rfl hstars
    · exact absurd rfl (hname _ rfl)
    · split at hst
      · cases hst
      · next hsaw =>
        cases hst
        rw [if_neg hsaw]
        exact (namedExpression_accepts he hn hrest.toEnds).bind hs _
  | starredArgument ht he =>
    rw [List.cons_append] at hs
    rw [hs, headKind_cons, ht]
    simp only [ArgState.add] at hst ⊢
    split at hst
    · cases hst
    · next hsaw =>
      cases hst
      rw [if_neg hsaw, skip_bind hs ht rfl,
        bind_of_eq (starred_accepts rfl hs (hr.expression he hn.drop hrest.stops))]
      rfl
  | namedArgument ht ha he =>
    rw [List.cons_append, List.cons_append] at hs
    rw [hs, headKind_cons, secondKind_cons, ht, ha]
    cases hst
    simp only
    rw [skip_bind hs ht rfl, skip_next ha rfl,
      (hr.expression he hn.drop.drop hrest.stops).next, pure_apply]
    rfl
  | unpackedArgument ht he =>
    rw [List.cons_append] at hs
    rw [hs, headKind_cons, ht]
    cases hst
    simp only
    rw [skip_bind hs ht rfl, (hr.expression he hn.drop hrest.stops).next, pure_apply]
    rfl

theorem argumentEnd_cons (ht : t.kind = kind) (h : followLevel kind = 0)
    (hnamed : kind ≠ .op ":=") (hvalue : kind ≠ .op "=") : ArgumentEnd (t :: rest) where
  toEnds := ends_cons ht h hnamed
  noValue := by rwa [headKind_cons, ht]

theorem Phrase.argument_ne_close (h : Phrase d .argument ts xs) :
    headKind (ts ++ rest) ≠ .op ")" := by
  cases h with
  | positional he => exact he.named_ne rfl
  | starredArgument ht | namedArgument ht | unpackedArgument ht =>
    rw [List.cons_append, headKind_cons, ht]
    simp

/-- Further arguments behind commas, with a comma at the end or without. -/
theorem moreArguments_accepts {c : Token} {tr} (htr : Trailing tr) (hc : c.kind = .op ")") :
    ∀ {as : List Argument} {us : List Token} {st st' : ArgState} (fuel : Nat),
      Phrase d (.many (.further .argument)) us (as.map .argument) → st.addAll as = some st' →
      Below n us → us.length < fuel →
      Accepts (moreArguments r fuel st) (us ++ tr) (c :: rest) st'
  | _, _, _, _, 0, _, _, _, hfuel => absurd hfuel (Nat.not_lt_zero _)
  | [], us, st, st', fuel + 1, h, hst, hn, hfuel => by
    cases h
    cases hst
    intro s hs
    rw [moreArguments]
    rcases htr with rfl | ⟨m, rfl, hm⟩
    · replace hs : s.tokens = c :: rest := hs
      rw [accept_false hs (by rw [headKind_cons, hc]; decide)]
      simp only [pure_apply, List.append_nil, ← hs, Input.after_nil]
    · rw [List.nil_append, List.singleton_append] at hs
      rw [accept_true hs hm rfl, at?_bind, Input.after_tokens, headKind_cons, hc,
        if_pos (by decide)]
      rfl
  | a :: as, us, st, st', fuel + 1, h, hst, hn, hfuel => by
    cases h with
    | manyCons hx hxs =>
      cases hx with
      | @further _ m us _ hm ha =>
        obtain ⟨st₁, hadd, hst⟩ := Option.bind_eq_some_iff.1 hst
        rename_i vs
        have hends : ArgumentEnd (vs ++ tr ++ c :: rest) :=
          ListOf.follows (fun ht => argumentEnd_cons ht rfl (by decide) (by decide)) hxs htr
            fun _ => argumentEnd_cons hc rfl (by decide) (by decide)
        have hlen : vs.length < fuel := by
          simp only [List.length_append, List.length_cons] at hfuel
          omega
        intro s hs
        have hs' : s.tokens = m :: (us ++ (vs ++ tr ++ c :: rest)) := by simpa using hs
        rw [moreArguments, accept_true hs' hm rfl, at?_bind, Input.after_tokens,
          if_neg (by simpa using ha.argument_ne_close),
          (argument_accepts ha hadd hn.left.drop hends).next,
          (moreArguments_accepts htr hc fuel hxs hst hn.right hlen).behind]
        simp

theorem argumentsEnd_accepts {as st st'}
    (h : Phrase d (.many (.further .argument)) us (as.map .argument)) (htr : Trailing tr)
    (hst : st.addAll as = some st') (hc : c.kind = .op ")") (hn : Below n us) : Accepts
      (do
        let st ← fun (input : Input) => moreArguments r (input.tokens.length + 1) st input
        expectOp ")"
        return (st.args, st.keywords)) (us ++ tr ++ [c]) rest (st'.args, st'.keywords) := by
  intro s hs
  rw [List.append_assoc, List.singleton_append] at hs
  have hfuel : us.length < s.tokens.length + 1 := by
    rw [hs, List.length_append, List.length_append]
    omega
  refine (bind_of_eq (p := fun (input : Input) =>
    moreArguments r (input.tokens.length + 1) st input)
    (moreArguments_accepts htr hc _ h hst hn hfuel s hs)).trans ?_
  rw [expect_next hc rfl, pure_apply]

theorem arguments_accepts {generator start} {as : List Argument}
    {st : ArgState} (h : Phrase d .arguments ts (as.map .argument))
    (hst : ArgState.empty.addAll as = some st) (hc : c.kind = .op ")") (hn : Below n ts) :
    Accepts (arguments r start generator) (ts ++ [c]) rest (st.args, st.keywords) := by
  generalize hxs : as.map Tree.argument = xs at h
  cases h with
  | noArguments =>
    obtain rfl := List.map_eq_nil_iff.1 hxs
    cases hst
    intro s hs
    rw [arguments, accept_true hs hc rfl]
    rfl
  | arguments h =>
    obtain ⟨a, as, us, vs, tr, rfl, rfl, ha, hmany, htr, -⟩ := Phrase.commas_parts (hxs ▸ h)
    obtain ⟨⟨args, keywords, sawKeyword, sawDoubleStar⟩, hadd, hst⟩ :=
      Option.bind_eq_some_iff.1 hst
    have hends : ArgumentEnd (vs ++ tr ++ c :: rest) :=
      ListOf.follows (fun ht => argumentEnd_cons ht rfl (by decide) (by decide)) hmany htr
        fun _ => argumentEnd_cons hc rfl (by decide) (by decide)
    have hnone : Accepts (comprehensionClauses r) [] (vs ++ tr ++ c :: rest) [] :=
      (closes_of_kind hc (.inl rfl)).noClauses hmany htr
    intro s hs
    have hs' : s.tokens = us ++ (vs ++ tr ++ c :: rest) := by simpa using hs
    have hrest := argumentsEnd_accepts (r := r) hmany htr hst hc hn.right.left
      (s.after us (vs ++ tr ++ c :: rest)) (by simp; rfl)
    rw [Input.after_append, ← List.append_assoc] at hrest
    rw [arguments, accept_false hs' ha.argument_ne_close]
    refine ((argument_accepts ha hadd hn.left hends).bind hs' _).trans ?_
    simp only
    split
    · exact hrest
    · exact (hnone.nextNil _).trans hrest
    · exact hrest

/-- What may stand behind a bound of a slice. -/
def BoundEnd (rest : List Token) : Prop :=
  headKind rest = .op ":" ∨ headKind rest = .op "," ∨ headKind rest = .op "]"

theorem BoundEnd.stops (h : BoundEnd rest) : Stops Level.test rest := by
  unfold Stops
  rcases h with h | h | h
  all_goals
    rw [h]
    decide

theorem sliceBound_accepts {o} (h : SpellsOption d .bound ts o)
    (hn : Below n ts) (hrest : BoundEnd rest) : Accepts (sliceBound r) ts rest o := by
  intro s hs
  rw [sliceBound, peek_bind]
  cases o with
  | none =>
    cases h with
    | noBound =>
      obtain rfl : rest = s.tokens := hs.symm
      rcases hrest with h | h | h
      all_goals
        rw [h]
        rfl
  | some e =>
    cases h with
    | bound he =>
      have hne {kind : TokenKind} (hkind : startLevel kind = 0) : headKind s.tokens ≠ kind :=
        hs ▸ (Phrase.unnamed he).named_ne hkind
      have hcolon := @hne (.op ":") rfl
      have hcomma := @hne (.op ",") rfl
      have hclose := @hne (.op "]") rfl
      generalize headKind s.tokens = k at hcolon hcomma hclose
      split
      · exact absurd rfl hcolon
      · exact absurd rfl hcomma
      · exact absurd rfl hclose
      · exact (hr.expression he hn hrest.stops).map some s hs

/-- What may stand behind an element of a subscript. -/
def SliceEnd (rest : List Token) : Prop :=
  headKind rest = .op "," ∨ headKind rest = .op "]"

theorem SliceEnd.ne (h : SliceEnd rest) (hcomma : .op "," ≠ kind) (hclose : .op "]" ≠ kind) :
    headKind rest ≠ kind := by
  rcases h with h | h
  · exact h ▸ hcomma
  · exact h ▸ hclose

theorem SliceEnd.ends (h : SliceEnd rest) : Ends rest where
  stops := BoundEnd.stops (.inr h)
  unnamed := h.ne (by decide) (by decide)

theorem Phrase.step_parts {step} (h : SpellsOption d .step ts step) : (ts = [] ∧ step = none) ∨
      ∃ t us, ts = t :: us ∧ t.kind = .op ":" ∧ SpellsOption d .bound us step := by
  unfold SpellsOption at h ⊢
  generalize hxs : step.toList.map Tree.expr = xs at h ⊢
  cases h with
  | noStep => exact .inl ⟨rfl, by simpa using hxs⟩
  | step ht h => exact .inr ⟨_, _, rfl, ht, h⟩

theorem sliceRest_accepts {m lower upper step} (hm : m.kind = .op ":")
    (hupper : SpellsOption d .bound us upper) (hstep : SpellsOption d .step vs step)
    (hn : Below n (us ++ vs)) (hrest : SliceEnd rest)
    (hs : s.tokens = ts ++ m :: (us ++ vs) ++ rest) :
    sliceRest r s.place lower (s.after ts (m :: (us ++ vs ++ rest)))
      = some (.slice (spanOf (ts ++ m :: (us ++ vs))) lower upper step,
        s.after (ts ++ m :: (us ++ vs)) rest) := by
  rcases hstep.step_parts with ⟨rfl, rfl⟩ | ⟨t, ws, rfl, ht, hbound⟩
  · rw [List.append_nil] at hs ⊢
    rw [sliceRest, expect_next hm rfl, (sliceBound_accepts hupper hn.left (.inr hrest)).next,
      accept_no (hrest.ne (by decide) (by decide))]
    simp only [pure_bind, List.append_assoc, List.singleton_append]
    exact finish hs (by simp) (Expr.slice · lower upper none)
  · have hend : BoundEnd (t :: (ws ++ rest)) := .inl ht
    rw [List.append_assoc, List.cons_append, sliceRest, expect_next hm rfl,
      (sliceBound_accepts hupper hn.left hend).next, accept_yes ht rfl,
      (sliceBound_accepts hbound hn.right.drop (.inr hrest)).next]
    simp only [List.append_assoc, List.singleton_append]
    exact finish hs (by simp) (Expr.slice · lower upper step)

theorem sliceElement_expression (h : Spells d (.expr Level.test) ts e)
    (hn : Below n ts) (hrest : Ends rest) (hs : s.tokens = ts ++ rest) :
    sliceElement r s = (do if ← atOp ":" then sliceRest r s.place (some e) else return e)
      (s.after ts rest) := by
  have hcolon : headKind s.tokens ≠ .op ":" := hs ▸ (Phrase.unnamed h).named_ne rfl
  have hstar : headKind s.tokens ≠ .op "*" := hs ▸ (Phrase.unnamed h).named_ne rfl
  have hname : ∀ id, headKind s.tokens = .name id → secondKind s.tokens ≠ .op ":=" := by
    rw [hs]
    exact fun id hid => h.second_ne rfl hrest.unnamed hid
  rw [sliceElement, here_bind, peek_bind, peekSecond_bind]
  generalize headKind s.tokens = k at hcolon hstar hname
  generalize secondKind s.tokens = k' at hname
  split
  · exact absurd rfl hcolon
  · exact absurd rfl hstar
  · exact absurd rfl (hname _ rfl)
  · exact (hr.expression h hn hrest.stops).bind hs _

theorem sliceElement_accepts : CompleteFor d n .slice SliceEnd (sliceElement r) := by
  intro ts rest e h hn hrest s hs
  cases h with
  | @slice m us vs ws lower upper step hlower hm hupper hstep =>
    have hslice : sliceRest r s.place lower _ = _ :=
      sliceRest_accepts hm hupper hstep hn.right.drop hrest hs
    cases lower with
    | none =>
      cases hlower with
      | noBound =>
        have hs₁ : s.tokens = m :: (vs ++ ws ++ rest) := hs
        rw [← hs₁, Input.after_nil] at hslice
        rw [sliceElement, here_bind, peek_bind, peekSecond_bind, hs₁, headKind_cons, hm]
        exact hslice
    | some e =>
      cases hlower with
      | bound he =>
        have hs₁ : s.tokens = us ++ m :: (vs ++ ws ++ rest) := by simpa using hs
        rw [sliceElement_expression he hn.left (ends_cons hm (by decide) (by decide)) hs₁,
          at?_bind, Input.after_tokens, headKind_cons, hm]
        exact hslice
  | starredSlice ht he =>
    rw [List.cons_append] at hs
    rw [sliceElement, here_bind, peek_bind, peekSecond_bind, hs, headKind_cons, ht]
    simp only
    rw [skip_bind hs ht rfl]
    exact starred_accepts rfl hs (hr.expression he hn.drop hrest.ends.stops)
  | plainSlice he =>
    cases he with
    | named ht ha he hminor =>
      rw [sliceElement, here_bind, peek_bind, peekSecond_bind]
      have hs₁ := hs
      simp only [List.cons_append] at hs₁
      rw [hs₁, headKind_cons, secondKind_cons, ht, ha]
      exact namedExpression_accepts (.named ht ha he hminor) hn hrest.ends s hs
    | unnamed he =>
      rw [sliceElement_expression he hn hrest.ends hs, at?_bind, Input.after_tokens]
      have hcolon : (headKind rest == .op ":") = false :=
        beq_false_of_ne (hrest.ne (by decide) (by decide))
      rw [hcolon]
      rfl

theorem slice_listOf : ListOf d n (· == .op "]") .slice SliceEnd .expr (sliceElement r) where
  element := sliceElement_accepts
  start h := by
    refine ⟨h.ne_nil rfl, beq_false_of_ne ?_⟩
    cases h with
    | @slice m us _ _ lower _ _ hlower hm _ _ =>
      cases lower with
      | none =>
        cases hlower with
        | noBound =>
          rw [List.nil_append, headKind_cons, hm]
          decide
      | some _ =>
        cases hlower with
        | bound he =>
          rw [headKind_append (he.ne_nil rfl)]
          exact he.head_ne (by decide)
    | starredSlice ht _ =>
      rw [headKind_cons, ht]
      decide
    | plainSlice he =>
      have hne : headKind (_ ++ []) ≠ .op "]" := he.named_ne rfl
      rwa [List.append_nil] at hne
  comma ht := .inl ht

theorem subscriptIndex_accepts (h : Spells d .index ts e)
    (hn : Below n ts) (hrest : headKind rest = .op "]") : Accepts (subscriptIndex r) ts rest e := by
  have hend : ListEnd (· == .op "]") SliceEnd rest :=
    { follows := .inr hrest, closes := by rw [hrest]; rfl, noComma := by rw [hrest]; decide }
  have hone : Accepts (elementsUntil (· == .op "]") (sliceElement r)) [] rest ([], false) :=
    elementsUntil_accepts slice_listOf .manyNil (.inl rfl) hn.none hend
  intro s hs
  rw [subscriptIndex, here_bind]
  cases h with
  | index he hstar =>
    rw [(sliceElement_accepts he hn hend.follows).bind hs, hone.nextNil]
    simp only [hstar, Bool.or_self, Bool.false_eq_true, if_false, pure_apply]
  | @starredIndex _ e he hstar =>
    rw [(sliceElement_accepts he hn hend.follows).bind hs, hone.nextNil]
    simp only [hstar, Bool.false_or, if_true]
    exact finish hs (he.ne_nil rfl) (Expr.tuple · [e])
  | indices h =>
    obtain ⟨e, es, us, vs, tr, rfl, rfl, he, hmany, htr, hneeded⟩ := h.commas_parts
    rw [(sliceElement_accepts he hn.left (ListOf.follows .inl hmany htr fun _ => hend.follows)).bind
        (by rw [hs, List.append_assoc]),
      (elementsUntil_accepts slice_listOf hmany htr hn.right.left hend).next]
    have hcomma : (vs ++ tr).isEmpty = false := by simpa using hneeded rfl
    simp only [hcomma, Bool.not_false, Bool.true_or, if_true]
    exact finish hs (by simp [he.ne_nil rfl]) (Expr.tuple · (e :: es))

end TypeStub.Syntax
