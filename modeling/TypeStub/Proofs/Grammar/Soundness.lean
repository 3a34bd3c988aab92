import TypeStub.Proofs.Grammar.Phrase
/-!
# Soundness of the rules

Whatever a rule for expressions reads is a phrase of its form, and the tree it gives is the one that
the phrase stands for.
-/

namespace TypeStub.Syntax

open Parse

variable {d : Dialect} {r : Rules}

/-- The phrases of a form that stand for one expression. -/
abbrev Spells (d : Dialect) (f : Form) (ts : List Token) (e : Expr) : Prop :=
  Phrase d f ts [.expr e]

/-- What is known of the rules that other rules call. -/
class RulesSound (d : outParam Dialect) (r : Rules) : Prop where
  tied : ∃ n, r = rules d n
  dialect : r.dialect = d
  expression : Reads r.expression (Spells d (.expr Level.test))
  disjunction : Reads r.disjunction (Spells d (.expr Level.or))
  inversion : Reads r.inversion (Spells d (.expr Level.not))
  bitOr : Reads r.bitOr (Spells d (.expr Level.bitOr))
  factor : Reads r.factor (Spells d (.expr Level.factor))

variable [hr : RulesSound d r] {α : Type} {s s' s₀ : Input} {ts : List Token}
  {e : Expr} {f : Form} {operand p : Parse Expr} {k : TokenKind}

/-- A rule that ends with a result has read what it took so far. -/
theorem Took.returns {R : List Token → α → Prop} {a b} (htook : Took s₀ ts s)
    (h : (pure a : Parse α) s = some (b, s')) (hR : R ts a) :
    ∃ us, Took s₀ us s' ∧ R us b := by
  cases h
  exact ⟨ts, htook, hR⟩

theorem Took.spans {R : List Token → α → Prop} {node : Span → α} {b}
    (htook : Took s₀ ts s)
    (hts : ts ≠ []) (h : (do return node (← spanFrom s₀.place)) s = some (b, s'))
    (hR : R ts (node (spanOf ts))) : ∃ us, Took s₀ us s' ∧ R us b := by
  rw [spanFrom_bind, htook.span hts] at h
  exact htook.returns h hR

theorem expr_ne_nil {k} (h : Spells d (.expr k) ts e) : ts ≠ [] :=
  h.ne_nil rfl

/-! ## Small parts -/

theorem namedExpression_reads : Reads (namedExpression r) (Spells d .named) := by
  intro s e s' h
  rw [namedExpression, peek_bind, peekSecond_bind] at h
  generalize hk : headKind s.tokens = k at h
  generalize hk' : secondKind s.tokens = k' at h
  split at h
  · rw [here_bind] at h
    obtain ⟨t, s₁, ht, h₁, h⟩ := of_skip hk rfl h
    rw [spanFrom_bind, h₁.span (by simp)] at h
    obtain ⟨a, s₂, ha, h₂, h⟩ := of_skip (h₁.secondKind ▸ hk') rfl h
    obtain ⟨v, ts, s₃, h₃, hv, h⟩ := of_bind hr.expression h
    rw [require_bind, hr.dialect] at h
    split at h
    · cases h
    · next hminor =>
      exact (h₁.cons (h₂.cons h₃)).spans (by simp) h (.named ht ha hv (by omega))
  · exact hr.expression.imp (fun _ _ => .unnamed) s e s' h

theorem starred_bind {t} (hoperand : Reads operand (Spells d f)) (h₀ : Took s₀ [t] s)
    (h : starred s₀.place operand s = some (e, s')) :
    ∃ ts v, Took s₀ (t :: ts) s' ∧ Spells d f ts v ∧ e = .starred (spanOf (t :: ts)) v := by
  obtain ⟨v, ts, s₁, h₁, hv, h⟩ := of_bind hoperand h
  rw [spanFrom_bind] at h
  cases h
  have htook := h₀.cons h₁
  exact ⟨ts, v, htook, hv, by rw [htook.span (by simp)]⟩

theorem starOr_reads (hp : Reads p (Spells d f)) :
    Reads (starExpression r p) (Spells d (.starOr f)) := by
  intro s e s' h
  rw [starExpression, here_bind] at h
  rcases of_accept rfl h with ⟨t, s₁, ht, h₁, h⟩ | ⟨_, h⟩
  · obtain ⟨ts, v, htook, hv, rfl⟩ := starred_bind hr.bitOr h₁ h
    exact ⟨_, htook, .starred ht hv⟩
  · exact hp.imp (fun _ _ => .unstarred) s e s' h

theorem element_reads : Reads (starNamedExpression r) (Spells d .element) :=
  starOr_reads namedExpression_reads

/-! ## Items of loops -/

/-- The relation for something behind a token of a known kind. -/
def Behind {α : Type} (k : TokenKind) (R : List Token → α → Prop) (ts : List Token) (a : α) :
    Prop :=
  ∃ t us, ts = t :: us ∧ t.kind = k ∧ R us a

theorem behindComma_reads {R : List Token → α → Prop} {p} (ends : TokenKind → Bool)
    (hp : Reads p R) : Reads
      (do
        if ← atOp "," then
          if ends (← peekSecond) then return none
          skip
          let a ← p
          return some a
        else return none)
      (Optional (Behind (.op ",") R)) := by
  intro s o s' h
  rw [at?_bind] at h
  split at h
  · next hk =>
    rw [peekSecond_bind] at h
    split at h
    · exact (Took.refl _).returns h rfl
    · obtain ⟨t, s₁, ht, h₁, h⟩ := of_skip (by simpa using hk) rfl h
      obtain ⟨a, ts, s₂, h₂, ha, h⟩ := of_bind hp h
      exact (h₁.cons h₂).returns h ⟨t, ts, rfl, ht, ha⟩
  · exact (Took.refl _).returns h rfl

theorem behind_reads {R : List Token → α → Prop} {p} (hk : isLayout k = false)
    (hp : Reads p R) : Reads
      (do
        if ← accept k then
          let a ← p
          return some a
        else return none)
      (Optional (Behind k R)) := by
  intro s o s' h
  rcases of_accept hk h with ⟨t, s₁, ht, h₁, h⟩ | ⟨_, h⟩
  · obtain ⟨a, ts, s₂, h₂, ha, h⟩ := of_bind hp h
    exact (h₁.cons h₂).returns h ⟨t, ts, rfl, ht, ha⟩
  · exact (Took.refl _).returns h rfl

theorem Phrase.ofChain {R : List Token → α → Prop} {g : α → Tree}
    (hR : ∀ ts a, R ts a → Phrase d f ts [g a]) {as} (h : Chain R ts as) :
    Phrase d (.many f) ts (as.map g) := by
  induction h with
  | nil => exact .manyNil
  | cons hR' _ ih => exact .manyCons (hR _ _ hR') ih

theorem Phrase.furtherOfChain {R : List Token → α → Prop} {g : α → Tree}
    (hR : ∀ ts a, R ts a → Phrase d f ts [g a]) {as} (h : Chain (Behind (.op ",") R) ts as) :
    Phrase d (.many (.further f)) ts (as.map g) := by
  refine Phrase.ofChain (fun us a hus => ?_) h
  obtain ⟨t, vs, rfl, ht, hvs⟩ := hus
  exact .further ht (hR vs a hvs)

theorem Chain.eq_nil {R : List Token → α → Prop} (h : Chain R ts []) : ts = [] := by
  cases h
  rfl

/-! ## Lists of elements -/

/-- What may stand behind the first of several elements: further elements, a comma at the end, and
whether there is a comma at all. -/
def Rest (d : Dialect) (f : Form) (ts : List Token) (x : List Expr × Bool) : Prop :=
  ∃ us tr, ts = us ++ tr ∧ Phrase d (.many (.further f)) us (x.1.map .expr) ∧ Trailing tr ∧
    (x.2 = true ↔ us ++ tr ≠ [])

theorem elementsUntil_reads (ends : TokenKind → Bool) (hp : Reads p (Spells d f)) :
    Reads (elementsUntil ends p) (Rest d f) := by
  intro s x s' h
  rw [elementsUntil] at h
  obtain ⟨elts, us, s₁, h₁, hus, h⟩ := of_bind (many_reads (behindComma_reads ends hp)) h
  have hmany := Phrase.furtherOfChain (fun _ _ h => h) hus
  rcases of_accept rfl h with ⟨t, s₂, ht, h₂, h⟩ | ⟨_, h⟩
  · exact (h₁.trans h₂).returns h ⟨us, [t], rfl, hmany, .inr ⟨t, rfl, ht⟩, by simp⟩
  · cases h
    refine ⟨us, h₁, us, [], by simp, hmany, .inl rfl, ?_⟩
    cases elts with
    | nil => simp [hus.eq_nil]
    | cons e es =>
      cases hus with
      | cons hR _ =>
        obtain ⟨t, us, rfl, _⟩ := hR
        simp

theorem moreElements_reads (hp : Reads p (Spells d f)) : Reads (moreElements p) (Rest d f) :=
  elementsUntil_reads endsList hp

theorem Phrase.commasOfRest {needed us x} (he : Spells d f ts e) (hx : Rest d f us x)
    (hneeded : needed = true → x.2 = true) :
    Phrase d (.commas f needed) (ts ++ us) ((e :: x.1).map .expr) := by
  obtain ⟨vs, tr, rfl, hvs, htr, hcomma⟩ := hx
  rw [← List.append_assoc]
  exact .commas he hvs htr (fun h => hcomma.1 (hneeded h))

theorem Rest.eq_nil {x} (h : Rest d f ts x) (hx : x.2 = false) : ts = [] := by
  obtain ⟨us, tr, rfl, _, _, hcomma⟩ := h
  simpa [hx] using hcomma

theorem elementOrTuple_reads (hf : f.canBeEmpty = false) (hp : Reads p (Spells d f)) :
    Reads (elementOrTuple p) (Spells d (.list f)) := by
  intro s e s' h
  rw [elementOrTuple, here_bind] at h
  obtain ⟨first, ts, s₁, h₁, hfirst, h⟩ := of_bind hp h
  obtain ⟨x, us, s₂, h₂, hx, h⟩ := of_bind (moreElements_reads hp) h
  have htook := h₁.trans h₂
  have hne : ts ++ us ≠ [] := by simp [hfirst.ne_nil hf]
  obtain ⟨rest, isTuple⟩ := x
  cases isTuple with
  | true =>
    exact htook.spans hne h (.several (Phrase.commasOfRest hfirst hx (fun _ => rfl)))
  | false =>
    cases h
    obtain rfl := hx.eq_nil rfl
    exact ⟨_, htook, by simpa using Phrase.single hfirst⟩

theorem starExpressions_reads {k} (hp : Reads p (Spells d (.expr k))) :
    Reads (starExpressions r p) (Spells d (.tuple k)) :=
  elementOrTuple_reads rfl (starOr_reads hp)

/-! ## Yields and comprehensions -/

theorem yieldExpression_reads : Reads (yieldExpression r) (Spells d .yield) := by
  intro s e s' h
  rw [yieldExpression, here_bind] at h
  obtain ⟨y, s₁, hy, h₁, h⟩ := of_expect rfl h
  rcases of_accept rfl h with ⟨f, s₂, hf, h₂, h⟩ | ⟨_, h⟩
  · obtain ⟨v, ts, s₃, h₃, hv, h⟩ := of_bind hr.expression h
    exact (h₁.cons (h₂.cons h₃)).spans (by simp) h (.yieldFrom hy hf hv)
  · simp only [Bool.false_eq_true, if_false, peek_bind] at h
    split at h
    · exact h₁.spans (by simp) h (.yieldNothing hy)
    · obtain ⟨v, ts, s₂, h₂, hv, h⟩ := of_bind (starExpressions_reads hr.expression) h
      exact (h₁.cons h₂).spans (by simp) h (.yieldValue hy hv)

theorem bindingTargets_reads : Reads (bindingTargets r) (Spells d .targets) := by
  intro s e s' h
  obtain ⟨v, ts, s₁, h₁, hv, h⟩ := of_bind (starExpressions_reads hr.bitOr) h
  cases ht : v.toTarget? .bind with
  | none => simp only [ht, failure_apply, reduceCtorEq] at h
  | some t =>
    simp only [ht] at h
    exact h₁.returns h (.targets hv ht)

theorem conditions_reads : Reads
      (many do
        if ← acceptKeyword "if" then
          let e ← r.disjunction
          return some e
        else return none)
      (fun ts es => Phrase d (.many .condition) ts (es.map .expr)) := by
  intro s es s' h
  obtain ⟨ts, htook, hts⟩ := many_reads (behind_reads rfl hr.disjunction) s es s' h
  refine ⟨ts, htook, Phrase.ofChain (fun us e hus => ?_) hts⟩
  obtain ⟨t, vs, rfl, ht, hvs⟩ := hus
  exact .condition ht hvs

theorem comprehensionClause_reads : Reads (comprehensionClause r)
      (Optional fun ts c => Phrase d .clause ts [.clause c]) := by
  intro s o s' h
  rw [comprehensionClause, peek_bind, peekSecond_bind] at h
  generalize hk : headKind s.tokens = k at h
  generalize hk' : secondKind s.tokens = k' at h
  split at h
  case' h_1 =>
    simp only [pure_bind] at h
    obtain ⟨a, s₁, ha, h₁, h⟩ := of_skip hk rfl h
    rw [require_bind, hr.dialect] at h
    split at h
    · cases h
    rename_i hminor
    obtain ⟨t, s₂, ht, h₂, h⟩ := of_expect rfl h
    have hw : ForWords d true [a, t] := ⟨by omega, by simp [ha, ht]⟩
    have h₀ := h₁.cons h₂
  case' h_2 =>
    simp only [pure_bind] at h
    obtain ⟨t, s₁, ht, h₀, h⟩ := of_expect rfl h
    have hw : ForWords d false [t] := by simp [ForWords, ht]
  case h_3 => exact (Took.refl _).returns h rfl
  -- behind the words that introduce it, a clause is the same in both cases
  all_goals
    obtain ⟨target, ts, s₃, h₃, htarget, h⟩ := of_bind bindingTargets_reads h
    obtain ⟨i, s₄, hi, h₄, h⟩ := of_expect rfl h
    obtain ⟨iter, us, s₅, h₅, hiter, h⟩ := of_bind hr.disjunction h
    obtain ⟨conditions, vs, s₆, h₆, hconditions, h⟩ := of_bind conditions_reads h
    exact (h₀.trans (h₃.trans (h₄.cons (h₅.trans h₆)))).returns h
      (.clause hw htarget hi hiter hconditions)

theorem comprehensionClauses_reads : Reads (comprehensionClauses r)
      (fun ts cs => Phrase d (.many .clause) ts (cs.map .clause)) := by
  intro s cs s' h
  obtain ⟨ts, htook, hts⟩ := many_reads comprehensionClause_reads s cs s' h
  exact ⟨ts, htook, Phrase.ofChain (fun _ _ h => h) hts⟩

/-! ## Atoms -/

theorem Phrase.ofElement (h : Spells d .element ts e) (he : e.isStarred = false) :
    Spells d .named ts e := by
  cases h with
  | starred => simp [Expr.isStarred] at he
  | unstarred h => exact h

theorem parenthesized_reads : Reads (parenthesized r) (Spells d .atom) := by
  intro s e s' h
  rw [parenthesized, here_bind] at h
  obtain ⟨o, s₁, ho, h₁, h⟩ := of_expect rfl h
  rcases of_accept rfl h with ⟨c, s₂, hc, h₂, h⟩ | ⟨_, h⟩
  · exact (h₁.cons h₂).spans (by simp) h (.noTuple ho hc)
  simp only [Bool.false_eq_true, if_false, at?_bind] at h
  split at h
  · obtain ⟨v, ts, s₂, h₂, hv, h⟩ := of_bind yieldExpression_reads h
    obtain ⟨c, s₃, hc, h₃, h⟩ := of_expect rfl h
    exact (h₁.cons (h₂.trans h₃)).returns h (.group (.inr rfl) ho hv hc)
  obtain ⟨first, ts, s₂, h₂, hfirst, h⟩ := of_bind element_reads h
  rw [at?_bind] at h
  split at h
  · next hcomma =>
    obtain ⟨x, us, s₃, h₃, hx, h⟩ := of_bind (moreElements_reads element_reads) h
    obtain ⟨c, s₄, hc, h₄, h⟩ := of_expect rfl h
    refine (h₁.cons ((h₂.trans h₃).trans h₄)).spans (by simp) h
      (.tuple ho (Phrase.commasOfRest hfirst hx (fun _ => ?_)) hc)
    -- the comma that is next belongs to the rest
    cases hx' : x.2 with
    | true => rfl
    | false =>
      obtain rfl := hx.eq_nil hx'
      obtain rfl := h₃.eq_of_nil
      simp [h₄.headKind, hc] at hcomma
  · split at h
    · cases h
    · next hstar =>
      obtain ⟨cs, us, s₃, h₃, hcs, h⟩ := of_bind comprehensionClauses_reads h
      obtain ⟨c, s₄, hc, h₄, h⟩ := of_expect rfl h
      have hnamed := hfirst.ofElement (by simpa using hstar)
      have htook := h₁.cons ((h₂.trans h₃).trans h₄)
      cases cs with
      | nil =>
        cases h
        cases hcs
        exact ⟨_, by simpa using htook, .group (.inl rfl) ho hnamed hc⟩
      | cons clause cs =>
        exact htook.spans (by simp) h (.generator ho hnamed hcs (by simp) hc)

theorem bracketed_reads : Reads (bracketed r) (Spells d .atom) := by
  intro s e s' h
  rw [bracketed, here_bind] at h
  obtain ⟨o, s₁, ho, h₁, h⟩ := of_expect rfl h
  rcases of_accept rfl h with ⟨c, s₂, hc, h₂, h⟩ | ⟨_, h⟩
  · exact (h₁.cons h₂).spans (by simp) h (.noList ho hc)
  simp only [Bool.false_eq_true, if_false] at h
  obtain ⟨first, ts, s₂, h₂, hfirst, h⟩ := of_bind element_reads h
  -- clauses can follow only an element without a star
  obtain ⟨cs, us, s₃, h₃, ⟨hcs, hstar⟩, h⟩ := of_ite_bind
    (R := fun us cs => Phrase d (.many .clause) us (cs.map .clause) ∧
      (cs ≠ [] → first.isStarred = false))
    (fun _ => pure_reads ⟨.manyNil, by simp⟩)
    (fun hstar => comprehensionClauses_reads.imp
      (fun _ _ h => ⟨h, fun _ => by simpa using hstar⟩)) h
  cases cs with
  | nil =>
    cases hcs
    simp only [List.isEmpty_nil, if_true] at h
    obtain ⟨x, vs, s₄, h₄, hx, h⟩ := of_bind (moreElements_reads element_reads) h
    obtain ⟨c, s₅, hc, h₅, h⟩ := of_expect rfl h
    exact (h₁.cons ((h₂.trans (h₃.trans h₄)).trans h₅)).spans (by simp) h
      (.list ho (Phrase.commasOfRest hfirst hx (by simp)) hc)
  | cons clause cs =>
    simp only [List.isEmpty_cons, Bool.false_eq_true, if_false] at h
    obtain ⟨c, s₄, hc, h₄, h⟩ := of_expect rfl h
    exact (h₁.cons ((h₂.trans h₃).trans h₄)).spans (by simp) h
      (.listComp ho (hfirst.ofElement (hstar (by simp))) hcs (by simp) hc)

theorem dictEntry_reads : Reads (dictEntry r) (fun ts e => Phrase d .entry ts [.entry e]) := by
  intro s e s' h
  rcases of_accept rfl h with ⟨t, s₁, ht, h₁, h⟩ | ⟨_, h⟩
  · obtain ⟨v, ts, s₂, h₂, hv, h⟩ := of_bind hr.bitOr h
    cases h
    exact ⟨_, h₁.cons h₂, .unpackedEntry ht hv⟩
  · obtain ⟨k, ts, s₁, h₁, hkey, h⟩ := of_bind hr.expression h
    obtain ⟨m, s₂, hm, h₂, h⟩ := of_expect rfl h
    obtain ⟨v, us, s₃, h₃, hv, h⟩ := of_bind hr.expression h
    cases h
    exact ⟨_, h₁.trans (h₂.cons h₃), .plainEntry hkey hm hv⟩

/-- A comma that may stand at the end of a list. -/
theorem trailing_bind {β : Type} {x} {f : Bool → Parse β}
    (h : (acceptOp "," >>= f) s = some x) :
    ∃ b tr s', Took s tr s' ∧ Trailing tr ∧ f b s' = some x := by
  rcases of_accept rfl h with ⟨t, s₁, ht, h₁, h⟩ | ⟨_, h⟩
  · exact ⟨true, [t], s₁, h₁, .inr ⟨t, rfl, ht⟩, h⟩
  · exact ⟨false, [], s, Took.refl s, .inl rfl, h⟩

theorem dictRest_reads {o first} (ho : o.kind = .op "\x7b")
    (h₀ : Took s₀ (o :: ts) s) (hfirst : Phrase d .entry ts [.entry first])
    (h : dictRest r s₀.place first s = some (e, s')) :
    ∃ us, Took s₀ us s' ∧ Spells d .atom us e := by
  obtain ⟨rest, us, s₁, h₁, hus, h⟩ :=
    of_bind (many_reads (behindComma_reads endsList dictEntry_reads)) h
  obtain ⟨_, tr, s₂, h₂, htr, h⟩ := trailing_bind h
  obtain ⟨c, s₃, hc, h₃, h⟩ := of_expect rfl h
  have hmany := Phrase.furtherOfChain (fun _ _ h => h) hus
  have htook : Took s₀ (o :: (ts ++ us ++ tr ++ [c])) s₃ := by
    simpa using h₀.trans ((h₁.trans h₂).trans h₃)
  exact htook.spans (by simp) h (.dict ho (.commas hfirst hmany htr (by simp)) hc)

theorem setRest_reads {o first} (ho : o.kind = .op "\x7b")
    (h₀ : Took s₀ (o :: ts) s) (hfirst : Spells d .element ts first)
    (h : setRest r s₀.place first s = some (e, s')) :
    ∃ us, Took s₀ us s' ∧ Spells d .atom us e := by
  obtain ⟨x, us, s₁, h₁, hx, h⟩ := of_bind (moreElements_reads element_reads) h
  obtain ⟨c, s₂, hc, h₂, h⟩ := of_expect rfl h
  have htook : Took s₀ (o :: (ts ++ us ++ [c])) s₂ := by
    simpa using h₀.trans (h₁.trans h₂)
  exact htook.spans (by simp) h (.set ho (Phrase.commasOfRest hfirst hx (by simp)) hc)

theorem namedExpression_eq_expression
    (h : ∀ id, headKind s.tokens = .name id → secondKind s.tokens = .op ":=" → False) :
    namedExpression r s = r.expression s := by
  rw [namedExpression, peek_bind, peekSecond_bind]
  generalize headKind s.tokens = k at h
  generalize secondKind s.tokens = k' at h
  split
  · exact absurd rfl (h _ rfl)
  · rfl

theorem setTail_reads {s₀ s s' o ts first e} (ho : o.kind = .op "\x7b")
    (h₀ : Took s₀ (o :: ts) s) (hfirst : Spells d .named ts first) (h : (do
      let clauses ← comprehensionClauses r
      if clauses.isEmpty then setRest r s₀.place first
      else
        expectOp "\x7d"
        return .setComp (← spanFrom s₀.place) first clauses) s = some (e, s')) :
    ∃ us, Took s₀ us s' ∧ Spells d .atom us e := by
  obtain ⟨cs, us, s₁, h₁, hcs, h⟩ := of_bind comprehensionClauses_reads h
  cases cs with
  | nil =>
    cases hcs
    exact setRest_reads ho (h₀.still h₁) (.unstarred hfirst) h
  | cons clause cs =>
    simp only [List.isEmpty_cons, Bool.false_eq_true, if_false] at h
    obtain ⟨c, s₂, hc, h₂, h⟩ := of_expect rfl h
    have htook : Took s₀ (o :: (ts ++ us ++ [c])) s₂ := by
      simpa using h₀.trans (h₁.trans h₂)
    exact htook.spans (by simp) h (.setComp ho hfirst hcs (by simp) hc)

theorem braced_reads : Reads (braced r) (Spells d .atom) := by
  intro s e s' h
  rw [braced, here_bind] at h
  obtain ⟨o, s₁, ho, h₁, h⟩ := of_expect rfl h
  rcases of_accept rfl h with ⟨c, s₂, hc, h₂, h⟩ | ⟨_, h⟩
  · exact (h₁.cons h₂).spans (by simp) h (.noDict ho hc)
  simp only [Bool.false_eq_true, if_false, at?_bind] at h
  split at h
  · obtain ⟨first, ts, s₂, h₂, hfirst, h⟩ := of_bind dictEntry_reads h
    exact dictRest_reads ho (h₁.cons h₂) hfirst h
  rw [at?_bind] at h
  split at h
  · obtain ⟨first, ts, s₂, h₂, hfirst, h⟩ := of_bind element_reads h
    exact setRest_reads ho (h₁.cons h₂) hfirst h
  rw [peek_bind, peekSecond_bind] at h
  generalize hk : headKind s₁.tokens = k at h
  generalize hk' : secondKind s₁.tokens = k' at h
  split at h
  · -- a named expression can only be an element
    obtain ⟨first, ts, s₂, h₂, hfirst, h⟩ := of_bind namedExpression_reads h
    simp only [peek_bind] at h
    exact setTail_reads ho (h₁.cons h₂) hfirst h
  next hnamed =>
  obtain ⟨first, s₂, hfirst, h⟩ := bind_eq_some.1 h
  rw [peek_bind] at h
  generalize hm : headKind s₂.tokens = m at h
  generalize false = b at h
  split at h
  · -- a key, which is no named expression
    rw [namedExpression_eq_expression (by simpa [hk, hk'] using hnamed)] at hfirst
    obtain ⟨ts, h₂, hkey⟩ := hr.expression _ _ _ hfirst
    obtain ⟨m, s₃, hm, h₃, h⟩ := of_skip hm rfl h
    obtain ⟨v, us, s₄, h₄, hv, h⟩ := of_bind hr.expression h
    obtain ⟨cs, vs, s₅, h₅, hcs, h⟩ := of_bind comprehensionClauses_reads h
    cases cs with
    | nil =>
      cases hcs
      have htook := h₁.cons (h₂.trans (h₃.cons (h₄.still h₅)))
      exact dictRest_reads ho htook (.plainEntry hkey hm hv) h
    | cons clause cs =>
      simp only [List.isEmpty_cons, Bool.false_eq_true, if_false] at h
      obtain ⟨c, s₆, hc, h₆, h⟩ := of_expect rfl h
      exact (h₁.cons (h₂.trans (h₃.cons ((h₄.trans h₅).trans h₆)))).spans (by simp) h
        (.dictComp ho hkey hm hv hcs (by simp) hc)
  · obtain ⟨ts, h₂, hfirst⟩ := namedExpression_reads _ _ _ hfirst
    exact setTail_reads ho (h₁.cons h₂) hfirst h

theorem literals_reads : Reads
      (many do
        match ← peek with
        | .string literal =>
          let t ← next
          return some (literal, t.span)
        | _ => return none)
      (fun ts literals => ts = literals.map stringToken) := by
  have hitem : Reads
      (do
        match ← peek with
        | .string literal =>
          let t ← next
          return some (literal, t.span)
        | _ => return none)
      (Optional fun ts literal => ts = [stringToken literal]) := by
    intro s o s' h
    rw [peek_bind] at h
    generalize hk : headKind s.tokens = k at h
    split at h
    · next literal =>
      obtain ⟨t, rest, hs, ht⟩ := exists_of_headKind hk (by simp)
      have hvis : isLayout t.kind = false := by rw [ht]; rfl
      have hnext : next s = some (t, s.after [t] rest) := by
        simp [next, hs, hvis, Input.after]
      rw [bind_of_eq hnext] at h
      cases h
      refine ⟨[t], Took.single hs hvis, ?_⟩
      simp [Optional, stringToken, ← ht]
    · exact (Took.refl _).returns h rfl
  intro s literals s' h
  obtain ⟨ts, htook, hts⟩ := many_reads hitem s literals s' h
  refine ⟨ts, htook, ?_⟩
  clear htook h
  induction hts with
  | nil => rfl
  | cons hR _ ih => simp [hR, ih]

theorem stringLiterals_reads : Reads (stringLiterals r) (Spells d .atom) := by
  intro s e s' h
  rw [stringLiterals, here_bind] at h
  obtain ⟨literals, ts, s₁, h₁, rfl, h⟩ := of_bind literals_reads h
  rw [spanFrom_bind] at h
  cases he : concatLiterals r (s₁.spanFrom s.place) literals with
  | none => simp [he] at h
  | some v =>
    simp only [he] at h
    cases h
    cases literals with
    | nil => cases he
    | cons literal literals =>
      rw [h₁.span (by simp)] at he
      obtain ⟨n, rfl⟩ := hr.tied
      exact ⟨_, h₁, .strings he⟩

theorem tokenAtom_reads {f : Span → Expr} (hk : headKind s.tokens = k) (hv : isLayout k = false)
    (hatom : ∀ t : Token, t.kind = k → Spells d .atom [t] (f t.span))
    (h : (do skip; return f (← spanFrom s.place)) s = some (e, s')) :
    ∃ ts, Took s ts s' ∧ Spells d .atom ts e := by
  obtain ⟨t, s₁, ht, h₁, h⟩ := of_skip hk hv h
  exact h₁.spans (by simp) h (hatom t ht)

theorem atom_reads : Reads (atom r) (Spells d .atom) := by
  intro s e s' h
  rw [atom, here_bind, peek_bind] at h
  generalize hk : headKind s.tokens = k at h
  split at h
  · exact tokenAtom_reads (f := fun sp => .name sp _ .load) hk rfl (fun _ => .name) h
  · next word =>
    cases hc : keywordConstant? word with
    | none => simp [hc] at h
    | some c =>
      simp only [hc] at h
      exact tokenAtom_reads (f := fun sp => .constant sp c) hk rfl
        (fun _ ht => .constant ht hc) h
  · exact tokenAtom_reads (f := fun sp => .constant sp _) hk rfl (fun _ => .number) h
  · exact stringLiterals_reads s e s' h
  · exact tokenAtom_reads (f := fun sp => .constant sp .ellipsis) hk rfl (fun _ => .ellipsis) h
  · exact parenthesized_reads s e s' h
  · exact bracketed_reads s e s' h
  · exact braced_reads s e s' h
  · cases h

/-! ## Arguments and subscripts -/

theorem argument_reads (st : ArgState) : Reads (argument r st)
      (fun ts st' => ∃ a, Phrase d .argument ts [.argument a] ∧ st.add a = some st') := by
  intro s st' s' h
  rw [argument, here_bind, peek_bind, peekSecond_bind] at h
  generalize hk : headKind s.tokens = k at h
  generalize hk' : secondKind s.tokens = k' at h
  split at h
  · split at h
    · cases h
    · next hstar =>
      obtain ⟨t, s₁, ht, h₁, h⟩ := of_skip hk rfl h
      obtain ⟨v, s₂, hv, h⟩ := bind_eq_some.1 h
      obtain ⟨ts, e, htook, he, rfl⟩ := starred_bind hr.expression h₁ hv
      cases h
      exact ⟨_, htook, _, .starredArgument ht he, by simp [ArgState.add, hstar]⟩
  · obtain ⟨t, s₁, ht, h₁, h⟩ := of_skip hk rfl h
    obtain ⟨v, ts, s₂, h₂, hv, h⟩ := of_bind hr.expression h
    cases h
    exact ⟨_, h₁.cons h₂, _, .unpackedArgument ht hv, rfl⟩
  · obtain ⟨t, s₁, ht, h₁, h⟩ := of_skip hk rfl h
    obtain ⟨a, s₂, ha, h₂, h⟩ := of_skip (h₁.secondKind ▸ hk') rfl h
    obtain ⟨v, ts, s₃, h₃, hv, h⟩ := of_bind hr.expression h
    cases h
    exact ⟨_, h₁.cons (h₂.cons h₃), _, .namedArgument ht ha hv, rfl⟩
  · split at h
    · cases h
    · next hpos =>
      obtain ⟨v, ts, s₁, h₁, hv, h⟩ := of_bind namedExpression_reads h
      cases h
      exact ⟨_, h₁, _, .positional hv, by simp [ArgState.add, hpos]⟩

/-- What may stand behind the first argument: further arguments, and a comma at the end. -/
def MoreArguments (d : Dialect) (st : ArgState) (ts : List Token) (st' : ArgState) : Prop :=
  ∃ us tr as, ts = us ++ tr ∧ Phrase d (.many (.further .argument)) us (as.map .argument) ∧
    Trailing tr ∧ st.addAll as = some st'

theorem moreArguments_reads : ∀ fuel st, Reads (moreArguments r fuel st) (MoreArguments d st)
  | 0, st => by
    intro s st' s' h
    cases h
  | fuel + 1, st => by
    intro s st' s' h
    rw [moreArguments] at h
    rcases of_accept rfl h with ⟨t, s₁, ht, h₁, h⟩ | ⟨_, h⟩
    · simp only [if_true, at?_bind] at h
      split at h
      · exact h₁.returns h ⟨[], [t], [], rfl, .manyNil, .inr ⟨t, rfl, ht⟩, rfl⟩
      · obtain ⟨st₁, ts, s₂, h₂, ⟨a, ha, hst⟩, h⟩ := of_bind (argument_reads st) h
        obtain ⟨us, h₃, vs, tr, as, rfl, has, htr, hst'⟩ :=
          moreArguments_reads fuel st₁ _ _ _ h
        refine ⟨_, h₁.cons (h₂.trans h₃), (t :: ts) ++ vs, tr,
          a :: as, by simp, ?_, htr, ?_⟩
        · exact .manyCons (.further ht ha) has
        · simp [ArgState.addAll, hst, hst']
    · exact (Took.refl _).returns h ⟨[], [], [], rfl, .manyNil, .inl rfl, rfl⟩

/-- What the brackets behind a function hold, with the closing one: arguments, or a generator
without brackets of its own. -/
def CallBrackets (d : Dialect) (generator : Bool) (o : Token) (ts : List Token)
    (x : List Expr × List (Keyword Expr)) : Prop :=
  (∃ us c as st, ts = us ++ [c] ∧ Phrase d .arguments us (as.map .argument) ∧
    c.kind = .op ")" ∧ ArgState.empty.addAll as = some st ∧ x = (st.args, st.keywords)) ∨
  (generator = true ∧ ∃ us vs c elt cs, ts = us ++ vs ++ [c] ∧ Spells d .named us elt ∧
    Phrase d (.many .clause) vs (cs.map .clause) ∧ cs ≠ [] ∧ c.kind = .op ")" ∧
    x = ([.generator (spanOf (o :: ts)) elt cs], []))

/-- A single positional argument comes from a named expression. -/
theorem Phrase.ofArgument {a st} (h : Phrase d .argument ts [.argument a])
    (hst : ArgState.empty.add a = some st) (hargs : st.args = [e]) (he : e.isStarred = false) :
    Spells d .named ts e := by
  cases h with
  | positional h =>
    simp only [ArgState.add, ArgState.empty, Bool.or_self, Bool.false_eq_true, if_false,
      Option.some.injEq] at hst
    subst hst
    simp only [List.nil_append, List.cons.injEq, and_true] at hargs
    exact hargs ▸ h
  | starredArgument _ h =>
    simp only [ArgState.add, ArgState.empty, Bool.false_eq_true, if_false, Option.some.injEq] at hst
    subst hst
    simp only [List.nil_append, List.cons.injEq, and_true] at hargs
    subst hargs
    simp [Expr.isStarred] at he
  | namedArgument _ _ h | unpackedArgument _ h =>
    simp only [ArgState.add, ArgState.empty, Option.some.injEq] at hst
    subst hst
    cases hargs

theorem argumentsEnd_reads {generator o a st s s₁ s' ts x} (h₁ : Took s ts s₁)
    (ha : Phrase d .argument ts [.argument a]) (hst : ArgState.empty.add a = some st) (h : (do
      let st ← fun (input : Input) => moreArguments r (input.tokens.length + 1) st input
      expectOp ")"
      return (st.args, st.keywords)) s₁ = some (x, s')) :
    ∃ us, Took s us s' ∧ CallBrackets d generator o us x := by
  obtain ⟨st', s₂, hmore, h⟩ := bind_eq_some.1 h
  obtain ⟨us, h₂, vs, tr, as, rfl, has, htr, hst'⟩ := moreArguments_reads _ st _ _ _ hmore
  obtain ⟨c, s₃, hc, h₃, h⟩ := of_expect rfl h
  cases h
  refine ⟨ts ++ vs ++ tr ++ [c], by simpa using h₁.trans (h₂.trans h₃), .inl ?_⟩
  refine ⟨ts ++ vs ++ tr, c, a :: as, st', rfl, ?_, hc, ?_, rfl⟩
  · exact .arguments (.commas ha has htr (by simp))
  · simp [ArgState.addAll, hst, hst']

theorem arguments_reads {generator start o x}
    (hstart : generator = true → ∃ s₀, Took s₀ [o] s ∧ start = s₀.place)
    (h : arguments r start generator s = some (x, s')) :
    ∃ ts, Took s ts s' ∧ CallBrackets d generator o ts x := by
  rw [arguments] at h
  rcases of_accept rfl h with ⟨c, s₁, hc, h₁, h⟩ | ⟨_, h⟩
  · exact h₁.returns h (.inl ⟨[], c, [], .empty, rfl, .noArguments, hc, rfl, rfl⟩)
  simp only [Bool.false_eq_true, if_false] at h
  obtain ⟨⟨args, keywords, sawKeyword, sawDoubleStar⟩, ts, s₁, h₁,
    ⟨a, ha, hst⟩, h⟩ :=
    of_bind (argument_reads _) h
  simp only at h
  split at h
  · exact argumentsEnd_reads h₁ ha hst h
  · rename_i elt hstarred _ _
    obtain ⟨cs, us, s₂, h₂, hcs, h⟩ := of_bind comprehensionClauses_reads h
    cases cs with
    | nil =>
      cases hcs
      exact argumentsEnd_reads (h₁.still h₂) ha hst h
    | cons clause cs =>
      obtain ⟨c, s₃, hc, h₃, h⟩ := of_expect rfl h
      obtain ⟨s₀, h₀, rfl⟩ := hstart rfl
      have htook := (h₁.trans h₂).trans h₃
      rw [spanFrom_bind, (h₀.cons htook).span (by simp)] at h
      cases h
      have helt : elt.isStarred = false := by
        cases elt <;> first | rfl | exact (hstarred _ _ rfl).elim
      exact ⟨_, htook, .inr ⟨rfl, ts, us, c, elt, _, rfl,
        ha.ofArgument hst rfl helt, hcs, by simp, hc, rfl⟩⟩
  · exact argumentsEnd_reads h₁ ha hst h

/-- The trees of an expression that may be missing. -/
abbrev SpellsOption (d : Dialect) (f : Form) (ts : List Token) (e : Option Expr) : Prop :=
  Phrase d f ts (e.toList.map .expr)

theorem sliceBound_reads : Reads (sliceBound r) (SpellsOption d .bound) := by
  intro s o s' h
  rw [sliceBound, peek_bind] at h
  generalize headKind s.tokens = k at h
  split at h
  iterate 3 exact (Took.refl _).returns h .noBound
  · obtain ⟨e, s₁, he, h⟩ := map_eq_some.1 h
    cases h
    obtain ⟨ts, htook, hts⟩ := hr.expression _ _ _ he
    exact ⟨ts, htook, .bound hts⟩

theorem sliceRest_reads {lower} (h₀ : Took s₀ ts s)
    (hlower : SpellsOption d .bound ts lower) (h : sliceRest r s₀.place lower s = some (e, s')) :
    ∃ us, Took s₀ us s' ∧ Spells d .slice us e := by
  obtain ⟨m, s₁, hm, h₁, h⟩ := of_expect rfl h
  obtain ⟨upper, us, s₂, h₂, hupper, h⟩ := of_bind sliceBound_reads h
  have hstep : ∃ vs step s₃, Took s₂ vs s₃ ∧ SpellsOption d .step vs step ∧
      (do return Expr.slice (← spanFrom s₀.place) lower upper step : Parse Expr) s₃
        = some (e, s') := by
    rcases of_accept rfl h with ⟨t, s₃, ht, h₃, h⟩ | ⟨_, h⟩
    · obtain ⟨step, vs, s₄, h₄, hstep, h⟩ := of_bind sliceBound_reads h
      exact ⟨_, step, s₄, h₃.cons h₄, .step ht hstep, h⟩
    · exact ⟨[], none, s₂, Took.refl _, .noStep, h⟩
  obtain ⟨vs, step, s₃, h₃, hstep, h⟩ := hstep
  exact (h₀.trans (h₁.cons (h₂.trans h₃))).spans (by simp) h (.slice hlower hm hupper hstep)

theorem sliceElement_reads : Reads (sliceElement r) (Spells d .slice) := by
  intro s e s' h
  rw [sliceElement, here_bind, peek_bind, peekSecond_bind] at h
  generalize hk : headKind s.tokens = k at h
  generalize hk' : secondKind s.tokens = k' at h
  split at h
  · exact sliceRest_reads (Took.refl s) .noBound h
  · obtain ⟨t, s₁, ht, h₁, h⟩ := of_skip hk rfl h
    obtain ⟨ts, v, htook, hv, rfl⟩ := starred_bind hr.expression h₁ h
    exact ⟨_, htook, .starredSlice ht hv⟩
  · exact namedExpression_reads.imp (fun _ _ => .plainSlice) s e s' h
  · obtain ⟨v, ts, s₁, h₁, hv, h⟩ := of_bind hr.expression h
    rw [at?_bind] at h
    split at h
    · exact sliceRest_reads h₁ (show SpellsOption d .bound ts (some v) from .bound hv) h
    · exact h₁.returns h (.plainSlice (.unnamed hv))

theorem subscriptIndex_reads : Reads (subscriptIndex r) (Spells d .index) := by
  intro s e s' h
  rw [subscriptIndex, here_bind] at h
  obtain ⟨first, ts, s₁, h₁, hfirst, h⟩ := of_bind sliceElement_reads h
  obtain ⟨⟨rest, isTuple⟩, us, s₂, h₂, hx, h⟩ :=
    of_bind (elementsUntil_reads _ sliceElement_reads) h
  have htook := h₁.trans h₂
  have hne : ts ++ us ≠ [] := by simp [hfirst.ne_nil rfl]
  simp only at h
  cases isTuple with
  | true =>
    exact htook.spans hne h (.indices (Phrase.commasOfRest hfirst hx (fun _ => rfl)))
  | false =>
    obtain ⟨vs, tr, rfl, hmany, _, hcomma⟩ := hx
    obtain ⟨rfl, rfl⟩ : vs = [] ∧ tr = [] := by simpa using hcomma
    obtain rfl : rest = [] := by simpa using hmany.many_eq_nil rfl rfl
    simp only [List.append_nil] at htook hne
    cases hstar : first.isStarred with
    | true =>
      simp only [hstar, Bool.false_or, if_true] at h
      exact htook.spans hne h (.starredIndex hfirst hstar)
    | false =>
      simp only [hstar, Bool.false_or, Bool.false_eq_true, if_false] at h
      exact htook.returns h (.index hfirst hstar)

/-! ## Primaries -/

theorem trailers_reads {s₀} :
    ∀ (fuel : Nat) {ts : List Token} {e v : Expr} {s s' : Input}, Took s₀ ts s →
      Spells d (.expr Level.atom) ts e → trailers r s₀.place fuel e s = some (v, s') →
      ∃ us, Took s₀ us s' ∧ Spells d (.expr Level.atom) us v
  | 0, _, _, _, _, _, _, _, h => by cases h
  | fuel + 1, ts, e, v, s, s', h₀, he, h => by
    rw [trailers, peek_bind] at h
    generalize hk : headKind s.tokens = k at h
    split at h
    · obtain ⟨p, s₁, hp, h₁, h⟩ := of_skip hk rfl h
      obtain ⟨id, n, s₂, hn, h₂, h⟩ := of_name h
      have htook := h₀.trans (h₁.cons h₂)
      rw [spanFrom_bind, htook.span (by simp)] at h
      exact trailers_reads fuel htook (.member he hp hn) h
    · rw [here_bind] at h
      obtain ⟨o, s₁, ho, h₁, h⟩ := of_skip hk rfl h
      obtain ⟨⟨args, keywords⟩, s₂, hargs, h⟩ := bind_eq_some.1 h
      obtain ⟨us, h₂, hus⟩ := arguments_reads (fun _ => ⟨s, h₁, rfl⟩) hargs
      have htook := h₀.trans (h₁.cons h₂)
      simp only [spanFrom_bind, htook.span (by simp)] at h
      refine trailers_reads fuel htook ?_ h
      rcases hus with ⟨vs, c, as, st, rfl, has, hc, hst, hx⟩ |
        ⟨_, vs, ws, c, elt, cs, rfl, helt, hcs, hne, hc, hx⟩
      · cases hx
        exact .call he ho has hc hst
      · cases hx
        exact .callGenerator he ho helt hcs hne hc
    · obtain ⟨o, s₁, ho, h₁, h⟩ := of_skip hk rfl h
      obtain ⟨i, us, s₂, h₂, hi, h⟩ := of_bind subscriptIndex_reads h
      obtain ⟨c, s₃, hc, h₃, h⟩ := of_expect rfl h
      have htook := h₀.trans (h₁.cons (h₂.trans h₃))
      rw [spanFrom_bind, htook.span (by simp)] at h
      exact trailers_reads fuel htook (.subscript he ho hi hc) h
    · exact h₀.returns h he

theorem primary_reads : Reads (primary r) (Spells d (.expr Level.atom)) := by
  intro s e s' h
  rw [primary, here_bind] at h
  obtain ⟨v, ts, s₁, h₁, hv, h⟩ := of_bind atom_reads h
  exact trailers_reads _ h₁ (.atom hv) h

/-! ## Operators -/

theorem Phrase.loosen {k} (hk : Level.test ≤ k) :
    ∀ (j : Nat), k + j ≤ Level.atom → Spells d (.expr (k + j)) ts e →
    Spells d (.expr k) ts e
  | 0, _, h => h
  | j + 1, hj, h => Phrase.loosen hk j (by omega) (.lift (by omega) (by omega) h)

theorem awaitable_reads : Reads (awaitable r) (Spells d (.expr Level.await)) := by
  intro s e s' h
  rw [awaitable, here_bind] at h
  rcases of_accept rfl h with ⟨t, s₁, ht, h₁, h⟩ | ⟨_, h⟩
  · simp only [if_true, require_bind, hr.dialect] at h
    split at h
    · cases h
    · next hminor =>
      obtain ⟨v, ts, s₂, h₂, hv, h⟩ := of_bind primary_reads h
      exact (h₁.cons h₂).spans (by simp) h (.await (by omega) ht hv)
  · exact primary_reads.imp (fun _ _ => .lift (by decide) (by decide)) s e s' h

theorem power_reads : Reads (power r) (Spells d (.expr Level.power)) := by
  intro s e s' h
  rw [power, here_bind] at h
  obtain ⟨base, ts, s₁, h₁, hbase, h⟩ := of_bind awaitable_reads h
  rcases of_accept rfl h with ⟨t, s₂, ht, h₂, h⟩ | ⟨_, h⟩
  · obtain ⟨exponent, us, s₃, h₃, hexponent, h⟩ := of_bind hr.factor h
    exact (h₁.trans (h₂.cons h₃)).spans (by simp) h (.power hbase ht hexponent)
  · exact h₁.returns h (.lift (by decide) (by decide) hbase)

theorem signOp?_visible {op} (h : signOp? k = some op) : isLayout k = false := by
  unfold signOp? at h
  split at h <;> first | rfl | cases h

theorem factor_reads : Reads (factor r) (Spells d (.expr Level.factor)) := by
  intro s e s' h
  rw [factor, here_bind, peek_bind] at h
  cases hop : signOp? (headKind s.tokens) with
  | none =>
    simp only [hop] at h
    exact power_reads.imp (fun _ _ => .lift (by decide) (by decide)) s e s' h
  | some op =>
    simp only [hop] at h
    obtain ⟨t, s₁, ht, h₁, h⟩ := of_skip rfl (signOp?_visible hop) h
    obtain ⟨v, ts, s₂, h₂, hv, h⟩ := of_bind hr.factor h
    exact (h₁.cons h₂).spans (by simp) h (.sign (ht ▸ hop) hv)

/-- A table of operators that group to the left, all of one level. -/
def OpsOfLevel (k : Nat) (ops : List (String × BinaryOp)) : Prop :=
  ∀ x ∈ ops, x.2.text = x.1 ∧ x.2.level = k ∧ x.2 ≠ .pow

instance (k : Nat) (ops : List (String × BinaryOp)) : Decidable (OpsOfLevel k ops) :=
  inferInstanceAs (Decidable (∀ x ∈ ops, _))

theorem mem_of_lookup {ops : List (String × BinaryOp)} {text op} (h : ops.lookup text = some op) :
    (text, op) ∈ ops := by
  obtain ⟨front, back, rfl, -⟩ := List.lookup_eq_some_iff.1 h
  simp

theorem leftAssocFrom_reads {k ops operand} (hops : OpsOfLevel k ops)
    (hoperand : Reads operand (Spells d (.expr (k + 1)))) {s₀ : Input} :
    ∀ (fuel : Nat) {ts : List Token} {left e : Expr} {s s' : Input}, Took s₀ ts s →
      Spells d (.expr k) ts left →
      leftAssocFrom d operand ops s₀.place fuel left s = some (e, s') →
      ∃ us, Took s₀ us s' ∧ Spells d (.expr k) us e
  | 0, _, _, _, _, _, _, _, h => by cases h
  | fuel + 1, ts, left, e, s, s', h₀, hleft, h => by
    rw [leftAssocFrom, peek_bind] at h
    generalize hk : headKind s.tokens = kind at h
    split at h
    · next text =>
      cases hop : ops.lookup text with
      | none =>
        simp only [hop] at h
        exact h₀.returns h hleft
      | some op =>
        obtain ⟨rfl, rfl, hpow⟩ : op.text = text ∧ op.level = k ∧ op ≠ .pow :=
          hops _ (mem_of_lookup hop)
        simp only [hop] at h
        obtain ⟨t, s₁, ht, h₁, h⟩ := of_skip hk rfl h
        have hright : ∃ right us s₂, Took s₁ us s₂ ∧ (op = .matMult → 5 ≤ d.minor) ∧
            Spells d (.expr (op.level + 1)) us right ∧
            (do
              let span ← spanFrom s₀.place
              leftAssocFrom d operand ops s₀.place fuel (.binOp span left op right)) s₂
              = some (e, s') := by
          split at h
          · next hmat =>
            rw [require_bind] at h
            split at h
            · cases h
            · next hminor =>
              obtain ⟨right, us, s₂, h₂, hright, h⟩ := of_bind hoperand h
              exact ⟨right, us, s₂, h₂, fun _ => by omega, hright, h⟩
          · next hmat =>
            obtain ⟨right, us, s₂, h₂, hright, h⟩ := of_bind hoperand h
            exact ⟨right, us, s₂, h₂, fun hop =>
              absurd hop (by simpa using hmat), hright, h⟩
        obtain ⟨right, us, s₂, h₂, hminor, hright, h⟩ := hright
        have htook := h₀.trans (h₁.cons h₂)
        rw [spanFrom_bind, htook.span (by simp)] at h
        exact leftAssocFrom_reads hops hoperand fuel htook
          (.binary hpow hminor hleft ht hright) h
    · exact h₀.returns h hleft

theorem leftAssoc_reads {k ops} (hlow : Level.test ≤ k) (hhigh : k < Level.atom)
    (hops : OpsOfLevel k ops) (hoperand : Reads operand (Spells d (.expr (k + 1)))) :
    Reads (leftAssoc r.dialect operand ops) (Spells d (.expr k)) := by
  intro s e s' h
  rw [leftAssoc, here_bind, hr.dialect] at h
  obtain ⟨first, ts, s₁, h₁, hfirst, h⟩ := of_bind hoperand h
  exact leftAssocFrom_reads hops hoperand _ h₁ (.lift hlow hhigh hfirst) h

theorem term_reads : Reads (term r) (Spells d (.expr Level.term)) :=
  leftAssoc_reads (by decide) (by decide) (by decide) factor_reads

theorem arith_reads : Reads (arith r) (Spells d (.expr Level.arith)) :=
  leftAssoc_reads (by decide) (by decide) (by decide) term_reads

theorem shift_reads : Reads (shift r) (Spells d (.expr Level.shift)) :=
  leftAssoc_reads (by decide) (by decide) (by decide) arith_reads

theorem bitAnd_reads : Reads (bitAnd r) (Spells d (.expr Level.bitAnd)) :=
  leftAssoc_reads (by decide) (by decide) (by decide) shift_reads

theorem bitXor_reads : Reads (bitXor r) (Spells d (.expr Level.bitXor)) :=
  leftAssoc_reads (by decide) (by decide) (by decide) bitAnd_reads

theorem bitOr_reads : Reads (bitOr r) (Spells d (.expr Level.bitOr)) :=
  leftAssoc_reads (by decide) (by decide) (by decide) bitXor_reads

/-- The tokens of a comparison operator. -/
abbrev CompareWords (ts : List Token) (op : CompareOp) : Prop :=
  ts.map (·.kind) = op.kinds

theorem oneToken_reads {op o} (h₀ : Took s₀ ts s) (hk : headKind s.tokens = k)
    (hv : isLayout k = false) (hop : ts.map (·.kind) ++ [k] = op.kinds)
    (h : (do skip; return some op : Parse (Option CompareOp)) s = some (o, s')) :
    ∃ us, Took s₀ us s' ∧ Optional CompareWords us o := by
  obtain ⟨t, s₁, ht, h₁, h⟩ := of_skip hk hv h
  exact (h₀.trans h₁).returns h (by simpa [Optional, CompareWords, ht] using hop)

theorem compareOp_reads : Reads compareOp (Optional CompareWords) := by
  intro s o s' h
  simp only [compareOp, peek_bind] at h
  generalize hk : headKind s.tokens = k at h
  generalize hk' : secondKind s.tokens = k' at h
  have h₀ := Took.refl s
  split at h
  iterate 7 exact oneToken_reads h₀ hk rfl rfl h
  · rw [peekSecond_bind, hk'] at h
    split at h
    · obtain ⟨t, s₁, ht, h₁, h⟩ := of_skip hk rfl h
      exact oneToken_reads h₁ (h₁.secondKind ▸ hk') rfl (by simp [ht, CompareOp.kinds]) h
    · exact h₀.returns h rfl
  · obtain ⟨t, s₁, ht, h₁, h⟩ := of_skip hk rfl h
    rcases of_accept rfl h with ⟨u, s₂, hu, h₂, h⟩ | ⟨_, h⟩
    · exact (h₁.cons h₂).returns h (by simp [Optional, CompareWords, CompareOp.kinds, ht, hu])
    · exact h₁.returns h (by simp [Optional, CompareWords, CompareOp.kinds, ht])
  · exact h₀.returns h rfl

theorem compared_reads : Reads
      (do
        match ← compareOp with
        | some op =>
          let right ← bitOr r
          return some { op, right : Comparison Expr }
        | none => return none)
      (Optional fun ts c => Phrase d .comparison ts [.comparison c]) := by
  intro s o s' h
  obtain ⟨op, w, s₁, h₁, hw, h⟩ := of_bind compareOp_reads h
  cases op with
  | none =>
    obtain rfl : w = [] := hw
    exact h₁.returns h rfl
  | some op =>
    obtain ⟨right, ts, s₂, h₂, hright, h⟩ := of_bind bitOr_reads h
    exact (h₁.trans h₂).returns h (.comparison hw hright)

theorem comparison_reads : Reads (comparison r) (Spells d (.expr Level.compare)) := by
  intro s e s' h
  rw [comparison, here_bind] at h
  obtain ⟨left, ts, s₁, h₁, hleft, h⟩ := of_bind bitOr_reads h
  obtain ⟨rest, us, s₂, h₂, hrest, h⟩ := of_bind (many_reads compared_reads) h
  have htook := h₁.trans h₂
  cases rest with
  | nil =>
    obtain rfl := hrest.eq_nil
    cases h
    exact ⟨ts, by simpa using htook, .lift (by decide) (by decide) hleft⟩
  | cons c cs =>
    exact htook.spans (by simp [expr_ne_nil hleft]) h
      (.compare hleft (Phrase.ofChain (fun _ _ h => h) hrest) (by simp))

theorem inversion_reads : Reads (inversion r) (Spells d (.expr Level.not)) := by
  intro s e s' h
  rw [inversion, here_bind] at h
  rcases of_accept rfl h with ⟨t, s₁, ht, h₁, h⟩ | ⟨_, h⟩
  · obtain ⟨v, ts, s₂, h₂, hv, h⟩ := of_bind hr.inversion h
    exact (h₁.cons h₂).spans (by simp) h (.inversion ht hv)
  · exact comparison_reads.imp (fun _ _ => .lift (by decide) (by decide)) s e s' h

theorem boolChain_reads (op : BoolOp) (hoperand : Reads operand (Spells d (.expr (op.level + 1)))) :
    Reads (boolChain op.text op operand) (Spells d (.expr op.level)) := by
  intro s e s' h
  rw [boolChain, here_bind] at h
  obtain ⟨first, ts, s₁, h₁, hfirst, h⟩ := of_bind hoperand h
  obtain ⟨rest, us, s₂, h₂, hrest, h⟩ := of_bind (many_reads (behind_reads rfl hoperand)) h
  have htook := h₁.trans h₂
  cases rest with
  | nil =>
    obtain rfl := hrest.eq_nil
    cases h
    exact ⟨ts, by simpa using htook,
      .lift (by cases op <;> decide) (by cases op <;> decide) hfirst⟩
  | cons v vs =>
    refine htook.spans (by simp [expr_ne_nil hfirst]) h
      (.boolOp hfirst (Phrase.ofChain (fun us v hus => ?_) hrest) (by simp))
    obtain ⟨t, ws, rfl, ht, hws⟩ := hus
    exact .operand ht hws

theorem conjunction_reads : Reads (conjunction r) (Spells d (.expr Level.and)) :=
  boolChain_reads .and inversion_reads

theorem disjunction_reads : Reads (disjunction r) (Spells d (.expr Level.or)) :=
  boolChain_reads .or conjunction_reads

/-! ## Parameters -/

theorem paramAnnot_reads (style : ParamStyle) (starAllowed : Bool) :
    Reads (paramAnnot r style starAllowed) (SpellsOption d (.annot style starAllowed)) := by
  intro s o s' h
  rw [paramAnnot, peek_bind] at h
  generalize hk : headKind s.tokens = k at h
  split at h
  · obtain ⟨m, s₁, hm, h₁, h⟩ := of_skip hk rfl h
    rw [here_bind, peek_bind] at h
    generalize hk₁ : headKind s₁.tokens = k₁ at h
    split at h
    · obtain ⟨t, s₂, ht, h₂, h⟩ := of_skip hk₁ rfl h
      obtain ⟨v, ts, s₃, h₃, hv, h⟩ := of_bind hr.bitOr h
      rw [spanFrom_bind, (h₂.cons h₃).span (by simp)] at h
      exact (h₁.cons (h₂.cons h₃)).returns h (.starredAnnot hm ht hv)
    · obtain ⟨v, s₂, hv, h⟩ := map_eq_some.1 h
      cases h
      obtain ⟨ts, h₂, hts⟩ := hr.expression _ _ _ hv
      exact ⟨_, h₁.cons h₂, .annot hm hts⟩
  · exact (Took.refl _).returns h .noAnnot

theorem paramComment_reads (style : ParamStyle) : Reads
      (do
        match style, ← peek with
        | .function, .typeComment text =>
          skip
          return some text
        | _, _ => return none)
      (ParamComment style) := by
  intro s o s' h
  rw [peek_bind] at h
  generalize hk : headKind s.tokens = k at h
  split at h
  · obtain ⟨t, s₁, ht, h₁, h⟩ := of_skip hk rfl h
    exact h₁.returns h ⟨rfl, t, rfl, ht⟩
  · exact (Took.refl _).returns h rfl

theorem paramEnd_reads (style : ParamStyle) :
    Reads (paramEnd style) (fun ts x => ParamEnd style x.2 x.1 ts) := by
  intro s x s' h
  rcases of_accept rfl h with ⟨t, s₁, ht, h₁, h⟩ | ⟨_, h⟩
  · obtain ⟨c, ts, s₂, h₂, hc, h⟩ := of_bind (paramComment_reads style) h
    cases h
    exact ⟨_, h₁.cons h₂, t, ts, rfl, ht, hc⟩
  · obtain ⟨c, ts, s₁, h₁, hc, h⟩ := of_bind (paramComment_reads style) h
    rw [at?_bind] at h
    split at h
    · cases h
      exact ⟨_, h₁, hc⟩
    · cases h

theorem markEnd_reads (style : ParamStyle) :
    Reads (markEnd style) (fun ts more => MarkEnd more ts) := by
  intro s more s' h
  rcases of_accept rfl h with ⟨t, s₁, ht, h₁, h⟩ | ⟨_, h⟩
  · cases h
    exact ⟨_, h₁, t, rfl, ht⟩
  · simp only [Bool.false_eq_true, if_false, at?_bind] at h
    split at h
    · cases h
      exact ⟨[], Took.refl _, rfl⟩
    · cases h

/-- What one item of a parameter list adds to the parameters before it. -/
def ItemOf (d : Dialect) (style : ParamStyle) (st : ParamState) (ts : List Token)
    (x : ParamState × Bool) : Prop :=
  ∃ i, Phrase d (.param style x.2) ts [.item i] ∧ st.add i = some x.1

theorem default_bind {β : Type} {f : Option Expr → Parse β} {s x} (h : (do
      if ← acceptOp "=" then
        let v ← some <$> r.expression
        f v
      else f none) s = some x) :
    ∃ value ts s', Took s ts s' ∧ SpellsOption d .default ts value ∧ f value s' = some x := by
  rcases of_accept rfl h with ⟨t, s₁, ht, h₁, h⟩ | ⟨_, h⟩
  · obtain ⟨v, s₂, hv, h⟩ := bind_eq_some.1 h
    obtain ⟨e, s₃, he, hv⟩ := map_eq_some.1 hv
    obtain ⟨rfl, rfl⟩ := Prod.mk.inj hv
    obtain ⟨ts, h₂, hts⟩ := hr.expression _ _ _ he
    exact ⟨some e, t :: ts, s₃, h₁.cons h₂, .default ht hts, h⟩
  · exact ⟨none, [], s, Took.refl _, .noDefault, h⟩

theorem paramItem_reads (style : ParamStyle) (st : ParamState) :
    Reads (paramItem r style st) (ItemOf d style st) := by
  intro s x s' h
  rw [paramItem, peek_bind] at h
  generalize hk : headKind s.tokens = k at h
  split at h
  · split at h
    · cases h
    · next hslash =>
      obtain ⟨t, s₁, ht, h₁, h⟩ := of_skip hk rfl h
      obtain ⟨more, ts, s₂, h₂, hmore, h⟩ := of_bind (markEnd_reads style) h
      exact (h₁.cons h₂).returns h ⟨.slash,
        .slash ht hmore, by simp [ParamState.add, hslash]⟩
  · split at h
    · cases h
    · next hstar =>
      obtain ⟨t, s₁, ht, h₁, h⟩ := of_skip hk rfl h
      rcases of_accept rfl h with ⟨c, s₂, hc, h₂, h⟩ | ⟨_, h⟩
      · exact (h₁.cons h₂).returns h ⟨.star,
          .bareStar ht hc, by simp [ParamState.add, hstar]⟩
      · simp only [Bool.false_eq_true, if_false] at h
        obtain ⟨id, n, s₂, hn, h₂, h⟩ := of_name h
        obtain ⟨annot, ts, s₃, h₃, hannot, h⟩ := of_bind (paramAnnot_reads style true) h
        obtain ⟨⟨c, more⟩, us, s₄, h₄, hend, h⟩ := of_bind (paramEnd_reads style) h
        exact (h₁.cons (h₂.cons (h₃.trans h₄))).returns h
          ⟨_, .vararg ht hn hannot hend, by simp [ParamState.add, hstar]⟩
  · obtain ⟨t, s₁, ht, h₁, h⟩ := of_skip hk rfl h
    obtain ⟨id, n, s₂, hn, h₂, h⟩ := of_name h
    obtain ⟨annot, ts, s₃, h₃, hannot, h⟩ := of_bind (paramAnnot_reads style false) h
    obtain ⟨⟨c, more⟩, us, s₄, h₄, hend, h⟩ := of_bind (paramEnd_reads style) h
    exact (h₁.cons (h₂.cons (h₃.trans h₄))).returns h ⟨_, .kwarg ht hn hannot hend, rfl⟩
  · obtain ⟨n, s₁, hn, h₁, h⟩ := of_skip hk rfl h
    obtain ⟨annot, ts, s₂, h₂, hannot, h⟩ := of_bind (paramAnnot_reads style false) h
    obtain ⟨value, us, s₃, h₃, hvalue, h⟩ := default_bind h
    obtain ⟨⟨c, more⟩, vs, s₄, h₄, hend, h⟩ := of_bind (paramEnd_reads style) h
    have htook := h₁.cons ((h₂.trans h₃).trans h₄)
    simp only at h
    split at h
    · next hstar =>
      exact htook.returns h ⟨_, .plain hn hannot hvalue hend, by simp [ParamState.add, hstar]⟩
    · next hstar =>
      split at h
      · next hadmits =>
        exact htook.returns h
          ⟨_, .plain hn hannot hvalue hend, by simp [ParamState.add, hstar, hadmits]⟩
      · cases h
  · cases h

/-- What a whole parameter list adds to the parameters before it. -/
def ItemsOf (d : Dialect) (style : ParamStyle) (st : ParamState) (ts : List Token)
    (st' : ParamState) : Prop :=
  ∃ items, Phrase d (.params style) ts (items.map .item) ∧ st.addAll items = some st'

theorem paramItems_reads (style : ParamStyle) :
    ∀ fuel st, Reads (paramItems r style fuel st) (ItemsOf d style st)
  | 0, _ => by
    intro s st' s' h
    cases h
  | fuel + 1, st => by
    intro s st' s' h
    rw [paramItems, at?_bind] at h
    split at h
    · exact (Took.refl _).returns h ⟨[], .noParams, rfl⟩
    · obtain ⟨⟨st₁, more⟩, ts, s₁, h₁, ⟨i, hi, hst⟩, h⟩ :=
        of_bind (paramItem_reads style st) h
      cases more with
      | true =>
        obtain ⟨us, h₂, items, hitems, hst'⟩ := paramItems_reads style fuel st₁ _ _ _ h
        exact ⟨_, h₁.trans h₂, i :: items, .moreParams hi hitems,
          by simp [ParamState.addAll, hst, hst']⟩
      | false =>
        exact h₁.returns h ⟨[i], .lastParam hi, by simp [ParamState.addAll, hst]⟩

/-- A complete parameter list. -/
def ParamsOf (d : Dialect) (style : ParamStyle) (ts : List Token) (ps : Params Expr) : Prop :=
  ∃ items st, Phrase d (.params style) ts (items.map .item) ∧
    ParamState.empty.addAll items = some st ∧ st.isComplete = true ∧ ps = st.toParams

theorem params_reads (style : ParamStyle) : Reads (params r style) (ParamsOf d style) := by
  intro s ps s' h
  obtain ⟨st, s₁, hitems, h⟩ := bind_eq_some.1 h
  obtain ⟨ts, h₁, items, hts, hst⟩ := paramItems_reads style _ _ _ _ _ hitems
  rw [at?_bind] at h
  split at h
  · split at h
    · next hcomplete =>
      exact h₁.returns h ⟨items, st, hts, hst, hcomplete, rfl⟩
    · cases h
  · cases h

/-- Parameters that only positions can give need a version. -/
theorem posOnly_bind {β : Type} {ps : Params Expr} {f : Unit → Parse β} {s x} (h : (do
      if !ps.posOnly.isEmpty then
        let u ← require r.dialect 8
        f u
      else f ()) s = some x) : (ps.posOnly ≠ [] → 8 ≤ d.minor) ∧ f () s = some x := by
  split at h
  · rw [require_bind, hr.dialect] at h
    split at h
    · cases h
    · exact ⟨fun _ => by omega, h⟩
  · next hempty => exact ⟨fun hne => absurd hne (by simpa using hempty), h⟩

theorem lambda_reads : Reads (lambda r) (Spells d (.expr Level.test)) := by
  intro s e s' h
  rw [lambda, here_bind] at h
  obtain ⟨t, s₁, ht, h₁, h⟩ := of_expect rfl h
  obtain ⟨ps, ts, s₂, h₂, ⟨items, st, hts, hst, hcomplete, rfl⟩, h⟩ :=
    of_bind (params_reads .lambda) h
  obtain ⟨hpos, h⟩ := posOnly_bind h
  obtain ⟨m, s₃, hm, h₃, h⟩ := of_expect rfl h
  obtain ⟨body, us, s₄, h₄, hbody, h⟩ := of_bind hr.expression h
  exact (h₁.cons (h₂.trans (h₃.cons h₄))).spans (by simp) h
    (.lambda ht hts hst hcomplete hpos hm hbody)

/-! ## All expressions -/

theorem expression_reads : Reads (expression r) (Spells d (.expr Level.test)) := by
  intro s e s' h
  rw [expression, at?_bind] at h
  split at h
  · exact lambda_reads s e s' h
  · rw [here_bind] at h
    obtain ⟨body, ts, s₁, h₁, hbody, h⟩ := of_bind disjunction_reads h
    rcases of_accept rfl h with ⟨i, s₂, hi, h₂, h⟩ | ⟨_, h⟩
    · obtain ⟨test, us, s₃, h₃, htest, h⟩ := of_bind hr.disjunction h
      obtain ⟨l, s₄, hl, h₄, h⟩ := of_expect rfl h
      obtain ⟨orelse, vs, s₅, h₅, horelse, h⟩ := of_bind hr.expression h
      exact (h₁.trans (h₂.cons (h₃.trans (h₄.cons h₅)))).spans (by simp) h
        (.ifExp hbody hi htest hl horelse)
    · exact h₁.returns h (.lift (by decide) (by decide) hbody)

instance rules_sound (d : Dialect) : ∀ n, RulesSound d (rules d n)
  | 0 =>
    have hfails {R} : Reads (failure : Parse Expr) R := by
      intro s e s' h
      cases h
    { tied := ⟨0, rfl⟩
      dialect := rfl
      expression := hfails
      disjunction := hfails
      inversion := hfails
      bitOr := hfails
      factor := hfails }
  | n + 1 =>
    have := rules_sound d n
    { tied := ⟨n + 1, rfl⟩
      dialect := rfl
      expression := expression_reads
      disjunction := disjunction_reads
      inversion := inversion_reads
      bitOr := bitOr_reads
      factor := factor_reads }

end TypeStub.Syntax
