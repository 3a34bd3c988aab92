import TypeStub.Proofs.Grammar.Displays
/-!
# Completeness of the rules

Every expression of the grammar is read by the rule for its level, with the tree it stands for, as
long as what follows does not continue it (`rules_complete`). Together with soundness this makes the
grammar the exact description of what the rules do, apart from strings with expressions in braces,
anonymous functions, comprehensions, `await` and `yield`.

How the proof goes: the rules are levels that call each other down to primaries, and up again inside
brackets. Down the levels the tokens stay the same, and up again there are fewer, so the induction
is on a bound of their number. A rule that groups to the left reads its operands in a loop; for
these it is shown that the loop gets to each left part of the phrase and goes on from there
(`primary_reaches`, `leftAssoc_reaches`).
-/

namespace TypeStub.Syntax

open Parse

variable {d : Dialect} {r : Rules} {n : Nat} {ts us rest : List Token} {e : Expr}

/-! ## Primaries -/

variable [hr : RulesComplete d n r] {s : Input}

theorem trailers_member {p t id fuel} (hp : p.kind = .op ".") (ht : t.kind = .name id)
    (hs : s.tokens = ts ++ [p, t] ++ rest) :
    trailers r s.place (fuel + 1) e (s.after ts ([p, t] ++ rest))
      = trailers r s.place fuel (.attribute (spanOf (ts ++ [p, t])) e id)
        (s.after (ts ++ [p, t]) rest) := by
  rw [trailers, peek_bind, Input.after_tokens, List.cons_append, headKind_cons, hp]
  simp only
  rw [skip_next hp rfl, List.singleton_append, name_next ht, spanFrom_bind,
    List.append_assoc, List.singleton_append, Input.spanFrom_after hs (by simp)]

theorem trailers_call {o c as st fuel} (ho : o.kind = .op "(")
    (h : Phrase d .arguments us (as.map .argument)) (hst : ArgState.empty.addAll as = some st)
    (hc : c.kind = .op ")") (hn : Below n us) (hs : s.tokens = ts ++ o :: (us ++ [c]) ++ rest) :
    trailers r s.place (fuel + 1) e (s.after ts (o :: (us ++ [c]) ++ rest))
      = trailers r s.place fuel (.call (spanOf (ts ++ o :: (us ++ [c]))) e st.args st.keywords)
        (s.after (ts ++ o :: (us ++ [c])) rest) := by
  rw [trailers, peek_bind, Input.after_tokens, List.cons_append, headKind_cons, ho]
  simp only
  rw [here_bind, skip_next ho rfl, (arguments_accepts h hst hc hn).next]
  simp only
  rw [spanFrom_bind, List.append_assoc, List.singleton_append, Input.spanFrom_after hs (by simp)]

theorem trailers_subscript {o c i fuel} (ho : o.kind = .op "[")
    (hi : Spells d .index us i) (hc : c.kind = .op "]") (hn : Below n us)
    (hs : s.tokens = ts ++ o :: (us ++ [c]) ++ rest) :
    trailers r s.place (fuel + 1) e (s.after ts (o :: (us ++ [c]) ++ rest))
      = trailers r s.place fuel (.subscript (spanOf (ts ++ o :: (us ++ [c]))) e i)
        (s.after (ts ++ o :: (us ++ [c])) rest) := by
  have hclose : headKind (c :: rest) = .op "]" := hc
  rw [trailers, peek_bind, Input.after_tokens, List.cons_append, headKind_cons, ho]
  simp only
  rw [skip_next ho rfl, List.append_assoc, List.singleton_append,
    (subscriptIndex_accepts hi hn hclose).next, expect_next hc rfl, spanFrom_bind]
  simp only [List.append_assoc, List.cons_append, List.nil_append]
  rw [Input.spanFrom_after hs (by simp)]

/-- The rule for primaries reaches every primary within the one it reads, and goes on from there. -/
theorem primary_reaches :
    ∀ (m : Nat) {k : Nat} {ts rest : List Token} {e : Expr} {s : Input}, k = Level.atom →
      ts.length ≤ m → Spells d (.expr k) ts e → Below (n + 1) ts →
      Stops (Level.atom + 1) rest → s.tokens = ts ++ rest →
      ∃ fuel, rest.length < fuel ∧
        primary r s = trailers r s.place fuel e (s.after ts rest) := by
  intro m
  induction m with
  | zero =>
    intro k ts rest e s _ hm h
    exact absurd (List.length_eq_zero_iff.1 (Nat.le_zero.1 hm)) (h.ne_nil rfl)
  | succ m ih =>
    intro k ts rest e s hk hm h hn hrest hs
    have hinner : ∀ {us vs : List Token} {e' : Expr}, Spells d (.expr Level.atom) us e' →
        Stops (Level.atom + 1) (vs ++ rest) → vs ≠ [] → ts = us ++ vs →
        (∀ fuel, trailers r s.place (fuel + 1) e' (s.after us (vs ++ rest))
          = trailers r s.place fuel e (s.after ts rest)) →
        ∃ fuel, rest.length < fuel ∧
        primary r s = trailers r s.place fuel e (s.after ts rest) := by
      rintro us vs e' hinner hvs hne rfl hstep
      have hpos := List.length_pos_iff.2 hne
      rw [List.length_append] at hm
      obtain ⟨fuel, hfuel, heq⟩ := ih rfl (by omega) hinner hn.left hvs
        (by rw [hs, List.append_assoc])
      rw [List.length_append] at hfuel
      obtain ⟨fuel, rfl⟩ := Nat.exists_eq_succ_of_ne_zero (Nat.ne_zero_of_lt hfuel)
      exact ⟨fuel, by omega, heq.trans (hstep fuel)⟩
    cases h with
    | atom h =>
      refine ⟨rest.length + 1, Nat.lt_succ_self _, ?_⟩
      rw [primary, here_bind, (atom_accepts h hn hrest).bind hs, Input.after_tokens]
    | member h hp ht =>
      exact hinner h (stops_cons hp (by decide)) (by simp) rfl fun _ =>
        trailers_member hp ht hs
    | call h ho has hc hst =>
      exact hinner h (stops_cons ho (by decide)) (by simp) rfl fun _ =>
        trailers_call ho has hst hc hn.right.tail.left hs
    | callGenerator _ _ _ hclauses hcs =>
      exact absurd (hclauses.clauses_none hn.right.tail.left.right) hcs
    | subscript h ho hi hc =>
      exact hinner h (stops_cons ho (by decide)) (by simp) rfl fun _ =>
        trailers_subscript ho hi hc hn.right.tail.left hs
    | lift _ hlt => exact absurd (hk ▸ hlt) (Nat.lt_irrefl _)
    | @binary _ op | @boolOp op => cases op <;> cases hk
    | _ => cases hk

theorem primary_accepts : CompleteAt d (n + 1) Level.atom (primary r) := by
  intro ts rest e h hn hrest s hs
  obtain ⟨fuel, hfuel, heq⟩ := primary_reaches (r := r) ts.length rfl (Nat.le_refl _) h hn
    (hrest.mono (Nat.le_succ _)) hs
  obtain ⟨fuel, rfl⟩ := Nat.exists_eq_add_of_lt hfuel
  have hdot : headKind rest ≠ .op "." := hrest.ne (Nat.le_refl _)
  have hround : headKind rest ≠ .op "(" := hrest.ne (Nat.le_refl _)
  have hsquare : headKind rest ≠ .op "[" := hrest.ne (Nat.le_refl _)
  rw [heq, trailers, peek_bind, Input.after_tokens]
  generalize headKind rest = k at hdot hround hsquare
  split
  · exact absurd rfl hdot
  · exact absurd rfl hround
  · exact absurd rfl hsquare
  · rfl

theorem Phrase.head_append_ne {k kind} (h : Spells d (.expr k) ts e)
    (hk : startLevel kind < max Level.test k) : headKind (ts ++ rest) ≠ kind := by
  rw [headKind_append (h.ne_nil rfl)]
  exact h.head_ne hk

theorem awaitable_accepts : CompleteAt d (n + 1) Level.await (awaitable r) := by
  intro ts rest e h hn hrest s hs
  rw [awaitable, here_bind]
  generalize hk : Level.await = k at h
  cases h with
  | lift _ _ h =>
    subst hk
    rw [accept_false hs (h.head_append_ne (by decide))]
    exact primary_accepts h hn (hrest.mono (Nat.le_succ _)) s hs
  | await _ ht => exact (hn.no_word List.mem_cons_self ht (by decide)).elim
  | @binary _ op | @boolOp op => cases op <;> cases hk
  | _ => cases hk

/-! ## Operators -/

/-- No token continues an expression exactly at the level of signs. -/
theorem Stops.factor (h : Stops Level.power rest) : Stops Level.factor rest := by
  unfold Stops at h ⊢
  have hne : followLevel (headKind rest) ≠ Level.factor := by
    unfold followLevel
    split <;> decide
  exact Nat.lt_of_le_of_ne (Nat.le_of_lt_succ h) hne

theorem power_accepts : CompleteAt d (n + 1) Level.power (power r) := by
  intro ts rest e h hn hrest s hs
  rw [power, here_bind]
  generalize hk : Level.power = k at h
  cases h with
  | lift _ _ h =>
    subst hk
    rw [(awaitable_accepts h hn (hrest.mono (Nat.le_succ _))).bind hs,
      accept_no (hrest.ne (Nat.le_refl _))]
    rfl
  | @power t us vs left right hleft ht hright =>
    have hs₁ : s.tokens = us ++ t :: (vs ++ rest) := by simpa using hs
    have hright := hr.factor hright hn.right.tail hrest.factor
    rw [(awaitable_accepts hleft hn.left (stops_cons ht (by decide))).bind hs₁, accept_yes ht rfl,
      hright.next]
    simp only [List.append_assoc, List.singleton_append]
    exact finish hs (by simp) (Expr.binOp · left .pow right)
  | @binary t op _ _ _ _ hop =>
    cases op
    case pow => exact absurd rfl hop
    all_goals cases hk
  | @boolOp op => cases op <;> cases hk
  | _ => cases hk

theorem factor_accepts : CompleteAt d (n + 1) Level.factor (factor r) := by
  intro ts rest e h hn hrest s hs
  rw [factor, here_bind, peek_bind]
  generalize hk : Level.factor = k at h
  cases h with
  | lift _ _ h =>
    subst hk
    have hsign : signOp? (headKind s.tokens) = none := by
      rw [hs, headKind_append (h.ne_nil rfl)]
      cases hsome : signOp? (headKind ts) with
      | none => rfl
      | some op =>
        have hstart := h.expr_start.2
        rw [startLevel_signOp hsome] at hstart
        exact absurd hstart (by decide)
    rw [hsign]
    exact power_accepts h hn (hrest.mono (Nat.le_succ _)) s hs
  | @sign t op us e ht h =>
    rw [List.cons_append] at hs
    rw [hs, headKind_cons, ht]
    simp only
    rw [skip_bind hs rfl (signOp?_visible ht), (hr.factor h hn.tail hrest).next]
    exact finish hs (by simp) (Expr.unaryOp · op e)
  | @binary _ op | @boolOp op => cases op <;> cases hk
  | _ => cases hk

/-- A table that has all operators of one level that group to the left. -/
def CoversLevel (k : Nat) (ops : List (String × BinaryOp)) : Prop :=
  ∀ op : BinaryOp, op.level = k → op ≠ .pow → ops.lookup op.text = some op

section LeftAssoc

variable {k : Nat} {ops : List (String × BinaryOp)} {operand : Parse Expr}

/-- An operator and its right operand extend what stands before them. -/
theorem leftAssocFrom_step {op : BinaryOp} {t : Token} {left right fuel} {s : Input}
    (hop : ops.lookup op.text = some op) (hminor : op = .matMult → 5 ≤ d.minor)
    (ht : t.kind = .op op.text) (hright : Accepts operand us rest right)
    (hs : s.tokens = ts ++ t :: us ++ rest) :
    leftAssocFrom d operand ops s.place (fuel + 1) left (s.after ts (t :: us ++ rest))
      = leftAssocFrom d operand ops s.place fuel (.binOp (spanOf (ts ++ t :: us)) left op right)
        (s.after (ts ++ t :: us) rest) := by
  rw [leftAssocFrom, peek_bind, Input.after_tokens, List.cons_append, headKind_cons, ht]
  simp only [hop]
  rw [skip_next ht rfl]
  split
  case' isTrue hmat =>
    rw [require_bind, if_neg (Nat.not_lt.2 (hminor (by simpa using hmat)))]
  all_goals
    rw [hright.next, spanFrom_bind]
    simp only [List.append_assoc, List.singleton_append]
    rw [Input.spanFrom_after hs (by simp)]

/-- The rule reaches every left operand within the expression it reads, and goes on from there. -/
theorem leftAssoc_reaches (hcovers : CoversLevel k ops) (hlow : Level.bitOr ≤ k)
    (hhigh : k ≤ Level.term) (hoperand : CompleteAt d n (k + 1) operand) :
    ∀ (m : Nat) {ts rest : List Token} {e : Expr} {s : Input},
      ts.length ≤ m → Spells d (.expr k) ts e → Below n ts → Stops (k + 1) rest →
      s.tokens = ts ++ rest →
      ∃ fuel, rest.length < fuel ∧
        leftAssoc d operand ops s
          = leftAssocFrom d operand ops s.place fuel e (s.after ts rest) := by
  intro m
  induction m with
  | zero =>
    intro ts rest e s hm h
    exact absurd (List.length_eq_zero_iff.1 (Nat.le_zero.1 hm)) (h.ne_nil rfl)
  | succ m ih =>
    intro ts rest e s hm h hn hrest hs
    generalize hk : k = k' at h
    cases h with
    | lift _ _ h =>
      subst hk
      refine ⟨rest.length + 1, Nat.lt_succ_self _, ?_⟩
      rw [leftAssoc, here_bind, (hoperand h hn hrest).bind hs, Input.after_tokens]
    | @binary t op us vs left right hpow hminor hleft ht hright =>
      subst hk
      have hstops : Stops (op.level + 1) (t :: vs ++ rest) :=
        stops_cons ht (by rw [BinaryOp.followLevel_text]; exact Nat.lt_succ_self _)
      rw [List.length_append, List.length_cons] at hm
      obtain ⟨fuel, hfuel, heq⟩ := ih (by omega) hleft hn.left hstops
        (by rw [hs, List.append_assoc])
      rw [List.length_append, List.length_cons] at hfuel
      obtain ⟨fuel, rfl⟩ := Nat.exists_eq_succ_of_ne_zero (Nat.ne_zero_of_lt hfuel)
      exact ⟨fuel, by omega, heq.trans (leftAssocFrom_step (hcovers op rfl hpow) hminor ht
        (hoperand hright hn.right.drop hrest) hs)⟩
    | atom | member | call | callGenerator | subscript | await | power | sign =>
      exact absurd (hk ▸ hhigh) (by decide)
    | compare | inversion | ifExp | lambda => exact absurd (hk ▸ hlow) (by decide)
    | @boolOp op => cases op <;> exact absurd (hk ▸ hlow) (by decide)

theorem leftAssoc_accepts (hoperand : CompleteAt d (n + 1) (k + 1) operand)
    (hops : OpsOfLevel k ops := by decide)
    (hcovers : CoversLevel k ops := by intro op; cases op <;> decide)
    (hlow : Level.bitOr ≤ k := by decide) (hhigh : k ≤ Level.term := by decide) :
    CompleteAt d (n + 1) k (leftAssoc r.dialect operand ops) := by
  intro ts rest e h hn hrest s hs
  rw [hr.dialect]
  obtain ⟨fuel, hfuel, heq⟩ := leftAssoc_reaches hcovers hlow hhigh hoperand ts.length
    (Nat.le_refl _) h hn (hrest.mono (Nat.le_succ _)) hs
  obtain ⟨fuel, rfl⟩ := Nat.exists_eq_add_of_lt hfuel
  rw [heq, leftAssocFrom, peek_bind, Input.after_tokens]
  unfold Stops at hrest
  generalize headKind rest = kind at hrest
  split
  · next text =>
    cases hop : ops.lookup text with
    | none => rfl
    | some op =>
      obtain ⟨rfl, rfl, -⟩ : op.text = text ∧ op.level = k ∧ op ≠ .pow :=
        hops _ (mem_of_lookup hop)
      rw [BinaryOp.followLevel_text] at hrest
      exact absurd hrest (Nat.lt_irrefl _)
  · rfl

end LeftAssoc

theorem term_accepts : CompleteAt d (n + 1) Level.term (term r) :=
  leftAssoc_accepts factor_accepts

theorem arith_accepts : CompleteAt d (n + 1) Level.arith (arith r) :=
  leftAssoc_accepts term_accepts

theorem shift_accepts : CompleteAt d (n + 1) Level.shift (shift r) :=
  leftAssoc_accepts arith_accepts

theorem bitAnd_accepts : CompleteAt d (n + 1) Level.bitAnd (bitAnd r) :=
  leftAssoc_accepts shift_accepts

theorem bitXor_accepts : CompleteAt d (n + 1) Level.bitXor (bitXor r) :=
  leftAssoc_accepts bitAnd_accepts

theorem bitOr_accepts : CompleteAt d (n + 1) Level.bitOr (bitOr r) :=
  leftAssoc_accepts bitXor_accepts

/-! ## Comparisons -/

theorem compareOp_accepts {op} (h : ts.map (·.kind) = op.kinds)
    (hrest : headKind rest ≠ .keyword "not") : Accepts compareOp ts rest (some op) := by
  intro s hs
  rw [compareOp, peek_bind]
  cases op
  case eq | notEq | lt | ltE | gt | gtE | isIn =>
    obtain ⟨t, rfl, ht⟩ := List.map_eq_singleton_iff.1 h
    rw [hs, List.cons_append, headKind_cons, ht]
    exact skip_bind hs ht rfl _
  case is =>
    obtain ⟨t, rfl, ht⟩ := List.map_eq_singleton_iff.1 h
    replace hs : s.tokens = t :: rest := hs
    rw [hs, headKind_cons, ht]
    simp only
    rw [skip_bind hs ht rfl, accept_no hrest]
    rfl
  case' isNot | notIn =>
    obtain ⟨t, us, rfl, ht, hus⟩ := List.map_eq_cons_iff.1 h
    obtain ⟨u, rfl, hu⟩ := List.map_eq_singleton_iff.1 hus
    replace hs : s.tokens = t :: u :: rest := hs
    rw [hs, headKind_cons, ht]
    simp only
  case isNot =>
    rw [skip_bind hs ht rfl, accept_yes hu rfl]
    rfl
  case notIn =>
    rw [peekSecond_bind, hs, secondKind_cons, hu]
    simp only
    rw [skip_bind hs ht rfl, skip_next hu rfl]
    rfl

theorem compareOp_stops (h : Stops Level.compare rest) : Accepts compareOp [] rest none := by
  intro s hs
  obtain rfl : rest = s.tokens := hs.symm
  rw [compareOp, peek_bind, Input.after_nil]
  unfold Stops at h
  generalize headKind s.tokens = kind at h
  split
  case h_10 => rfl
  all_goals exact absurd h (by decide)

theorem comparisons_accept {cs}
    (h : Phrase d (.many .comparison) ts (cs.map .comparison)) (hn : Below (n + 1) ts)
    (hrest : Stops Level.compare rest) : Accepts
      (many do
        match ← compareOp with
        | some op =>
          let right ← bitOr r
          return some { op, right : Comparison Expr }
        | none => return none) ts rest cs := by
  refine many_accepts (B := Stops Level.bitOr) ?_ ?_ (hrest.mono (by decide)) ?_
    (h.toChain.eachBelow hn)
  · rintro vs more c ⟨hbelow, hc⟩ hmore
    refine ⟨hc.ne_nil rfl, ?_⟩
    cases hc with
    | @comparison w ts op e hw he =>
      intro s hs
      have hop : Accepts compareOp w (ts ++ more) (some op) :=
        compareOp_accepts hw (he.head_append_ne (by decide))
      rw [hop.bind (by rw [hs, List.append_assoc])]
      simp only
      rw [(bitOr_accepts he hbelow.right hmore).next, pure_apply]
  · rintro vs more c ⟨-, hc⟩
    cases hc with
    | comparison hw he =>
      rw [Stops, List.append_assoc, CompareOp.followLevel_kinds hw]
      decide
  · intro s hs
    rw [(compareOp_stops hrest).bind hs]
    rfl

theorem comparison_accepts : CompleteAt d (n + 1) Level.compare (comparison r) := by
  intro ts rest e h hn hrest s hs
  rw [comparison, here_bind]
  generalize hk : Level.compare = k at h
  cases h with
  | lift _ _ h =>
    subst hk
    have hnone : Accepts _ [] rest ([] : List (Comparison Expr)) :=
      comparisons_accept (r := r) .manyNil hn.none hrest
    rw [(bitOr_accepts h hn (hrest.mono (Nat.le_succ _))).bind hs]
    exact hnone.nextNil _
  | @compare us vs e cs h hcs hne =>
    have hmore : Stops Level.bitOr (vs ++ rest) := by
      have hvs : vs ≠ [] := fun hvs => hne (List.map_eq_nil_iff.1 (hcs.many_eq_nil rfl hvs))
      rw [Stops, headKind_append hvs, hcs.follow_comparisons (by simpa using hne)]
      decide
    have hempty : cs.isEmpty = false := by simpa using hne
    rw [(bitOr_accepts h hn.left hmore).bind (by rw [hs, List.append_assoc])]
    refine ((comparisons_accept hcs hn.right hrest).next _).trans ?_
    simp only [hempty, Bool.false_eq_true, if_false]
    exact finish hs (by simp [h.ne_nil rfl]) (Expr.compare · e cs)
  | @binary _ op | @boolOp op => cases op <;> cases hk
  | _ => cases hk

theorem inversion_accepts : CompleteAt d (n + 1) Level.not (inversion r) := by
  intro ts rest e h hn hrest s hs
  rw [inversion, here_bind]
  generalize hk : Level.not = k at h
  cases h with
  | lift _ _ h =>
    subst hk
    rw [accept_false hs (h.head_append_ne (by decide))]
    exact comparison_accepts h hn (hrest.mono (Nat.le_succ _)) s hs
  | @inversion t us e ht h =>
    rw [List.cons_append] at hs
    rw [accept_true hs ht rfl, (hr.inversion h hn.tail hrest).next]
    exact finish hs (by simp) (Expr.unaryOp · .not e)
  | @binary _ op | @boolOp op => cases op <;> cases hk
  | _ => cases hk

theorem operands_accept {op operand es} (hoperand : CompleteAt d n (op.level + 1) operand)
    (h : Phrase d (.many (.operand op)) ts (es.map .expr)) (hn : Below n ts)
    (hrest : Stops op.level rest) : Accepts
      (many do
        if ← acceptKeyword op.text then
          let e ← operand
          return some e
        else return none) ts rest es := by
  refine behind_accepts rfl hoperand (fun h => ?_)
    (fun t more ht => stops_cons ht (by rw [BoolOp.followLevel_text]; exact Nat.lt_succ_self _))
    (hrest.mono (Nat.le_succ _)) (hrest.ne (Nat.le_of_eq BoolOp.followLevel_text.symm)) h hn
  cases h with
  | operand ht he => exact ⟨_, _, rfl, ht, he⟩

theorem boolChain_accepts {op operand} (hoperand : CompleteAt d n (op.level + 1) operand) :
    CompleteAt d n op.level (boolChain op.text op operand) := by
  intro ts rest e h hn hrest s hs
  rw [boolChain, here_bind]
  generalize hk : op.level = k at h
  cases h with
  | lift _ _ h =>
    subst hk
    have hnone : Accepts _ [] rest ([] : List Expr) :=
      operands_accept hoperand .manyNil hn.none hrest
    rw [(hoperand h hn (hrest.mono (Nat.le_succ _))).bind hs, hnone.nextNil]
    rfl
  | @boolOp op' us vs e es h hes hne =>
    obtain rfl : op = op' := by
      cases op <;> cases op' <;> first | rfl | cases hk
    have hmore : Stops (op.level + 1) (vs ++ rest) := by
      have hvs : vs ≠ [] := fun hvs => hne (List.map_eq_nil_iff.1 (hes.many_eq_nil rfl hvs))
      rw [Stops, headKind_append hvs, hes.follow_operands (by simpa using hne)]
      exact Nat.lt_succ_self _
    have hempty : es.isEmpty = false := by simpa using hne
    rw [(hoperand h hn.left hmore).bind (by rw [hs, List.append_assoc]),
      (operands_accept hoperand hes hn.right hrest).next]
    simp only [hempty, Bool.false_eq_true, if_false]
    exact finish hs (by simp [h.ne_nil rfl]) (Expr.boolOp · op (e :: es))
  | @binary t op' => cases op <;> cases op' <;> cases hk
  | _ => cases op <;> cases hk

theorem conjunction_accepts : CompleteAt d (n + 1) Level.and (conjunction r) :=
  @boolChain_accepts d (n + 1) .and _ inversion_accepts

theorem disjunction_accepts : CompleteAt d (n + 1) Level.or (disjunction r) :=
  @boolChain_accepts d (n + 1) .or _ conjunction_accepts

/-! ## Expressions -/

theorem expression_accepts : CompleteAt d (n + 1) Level.test (expression r) := by
  intro ts rest e h hn hrest s hs
  rw [expression, at?_bind]
  generalize hk : Level.test = k at h
  cases h with
  | lift _ _ h =>
    subst hk
    rw [hs, beq_false_of_ne (h.head_append_ne (by decide))]
    simp only [Bool.false_eq_true, if_false]
    rw [here_bind, (disjunction_accepts h hn (hrest.mono (Nat.le_succ _))).bind hs,
      accept_no (hrest.ne (Nat.le_refl _))]
    rfl
  | @ifExp i l us vs ws body test orelse hbody hi htest hl horelse =>
    have hs₁ : s.tokens = us ++ i :: (vs ++ l :: (ws ++ rest)) := by simpa using hs
    rw [hs₁, beq_false_of_ne (hbody.head_append_ne (by decide))]
    simp only [Bool.false_eq_true, if_false]
    rw [here_bind, (disjunction_accepts hbody hn.left (stops_cons hi (by decide))).bind hs₁,
      accept_yes hi rfl,
      (hr.disjunction htest hn.right.tail.left (stops_cons hl (by decide))).next,
      expect_next hl rfl,
      (hr.expression horelse hn.right.tail.right.drop hrest).next]
    simp only [List.append_assoc, List.cons_append, List.nil_append]
    exact finish hs (by simp) (Expr.ifExp · test body orelse)
  | lambda ht => exact (hn.no_word List.mem_cons_self ht (by decide)).elim
  | @binary _ op | @boolOp op => cases op <;> cases hk
  | _ => cases hk

/-- The rules to the depth `n` read every expression of fewer than `n` tokens. -/
instance rules_complete (d : Dialect) : ∀ n, RulesComplete d n (rules d n)
  | 0 =>
    have hnone {k p} : CompleteAt d 0 k p := fun _ hn => absurd hn.length (Nat.not_lt_zero _)
    { dialect := rfl
      expression := hnone
      disjunction := hnone
      inversion := hnone
      bitOr := hnone
      factor := hnone }
  | n + 1 =>
    have := rules_complete d n
    { dialect := rfl
      expression := expression_accepts
      disjunction := disjunction_accepts
      inversion := inversion_accepts
      bitOr := bitOr_accepts
      factor := factor_accepts }

/-! ## Texts of one expression -/

theorem expression_listOf :
    ListOf d (n + 1) endsList (.expr Level.test) (Stops Level.test) .expr (expression r) where
  element := expression_accepts
  start h := ⟨h.ne_nil rfl, endsList_of_start h.expr_start.1⟩
  comma ht := stops_cons ht (by decide)

theorem parseExpression_accepts {text m}
    (htokens : tokenize d .origin false text = some (ts ++ [m], n)) (hm : m.kind = .endMarker)
    (h : Spells d (.list (.expr Level.test)) ts e) (hn : Below (text.length + 5) ts) :
    parseExpression d text = some e := by
  have hend : ListEnd endsList (Stops Level.test) [m] :=
    listEnd_cons hm (stops_cons hm (by decide)) rfl (by simp)
  have haccepts :=
    elementOrTuple_accepts (expression_listOf (r := rules d (text.length + 4))) h hn hend
    (Input.start (ts ++ [m])) rfl
  obtain ⟨kind, span⟩ := m
  obtain rfl : kind = .endMarker := hm
  simp only [parseExpression, htokens, Option.bind_eq_bind, Option.bind_some, haccepts,
    Input.after_tokens]
  rfl

end TypeStub.Syntax
