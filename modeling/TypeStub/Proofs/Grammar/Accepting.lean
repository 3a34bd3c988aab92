import TypeStub.Proofs.Grammar.Taking
/-!
# Accepting tokens

When a rule is sure to succeed. A rule accepts a stretch of tokens in front of others if it takes
exactly the stretch, whatever stood before it. What comes behind the stretch matters, because rules
look one or two tokens ahead.
-/

namespace TypeStub.Syntax

variable {α β : Type}

/-- In front of `rest` the rule takes exactly the tokens `ts`, with the result `a`. -/
def Accepts (p : Parse α) (ts rest : List Token) (a : α) : Prop :=
  ∀ s : Input, s.tokens = ts ++ rest → p s = some (a, s.after ts rest)

namespace Accepts

variable {p : Parse α} {ts rest : List Token} {a : α} {s : Input}

/-- A rule that is followed by the rest of another rule. -/
theorem bind (h : Accepts p ts rest a) (hs : s.tokens = ts ++ rest) (f : α → Parse β) :
    (p >>= f) s = f a (s.after ts rest) :=
  Parse.bind_of_eq (h s hs)

/-- A rule behind a stretch that was taken already. -/
theorem behind {us} (h : Accepts p ts rest a) :
    p (s.after us (ts ++ rest)) = some (a, s.after (us ++ ts) rest) := by
  rw [h _ (Input.after_tokens ..), Input.after_append]

theorem next {us} (h : Accepts p ts rest a) (f : α → Parse β) :
    (p >>= f) (s.after us (ts ++ rest)) = f a (s.after (us ++ ts) rest) :=
  Parse.bind_of_eq h.behind

theorem nextNil {us} (h : Accepts p [] rest a) (f : α → Parse β) :
    (p >>= f) (s.after us rest) = f a (s.after us rest) := by
  have hnext := @next α β p [] rest a s us h f
  rwa [List.append_nil] at hnext

theorem map (h : Accepts p ts rest a) (g : α → β) : Accepts (g <$> p) ts rest (g a) := by
  intro s hs
  exact Parse.map_eq_some.2 ⟨a, _, h s hs, rfl⟩

end Accepts

namespace Parse

variable {s : Input} {ts rest : List Token}

variable {k : TokenKind}

theorem accept_true {t} (hs : s.tokens = t :: rest) (ht : t.kind = k) (hk : isLayout k = false)
    (p q : Parse β) : (do if ← accept k then p else q) s = p (s.after [t] rest) :=
  accept_bind_true hs ht hk _

theorem accept_false (hs : s.tokens = rest) (h : headKind rest ≠ k) (p q : Parse β) :
    (do if ← accept k then p else q) s = q s :=
  accept_bind_false (hs ▸ h) _

/-! The same behind a stretch that was taken already. -/

section Behind

variable {t : Token}

theorem expect_next (ht : t.kind = k) (hk : isLayout k = false) (f : Unit → Parse β) :
    (expect k >>= f) (s.after ts (t :: rest)) = f () (s.after (ts ++ [t]) rest) := by
  rw [expect_bind (Input.after_tokens ..) ht hk, Input.after_append]

theorem accept_yes (ht : t.kind = k) (hk : isLayout k = false) (p q : Parse β) :
    (do if ← accept k then p else q) (s.after ts (t :: rest)) = p (s.after (ts ++ [t]) rest) := by
  rw [accept_true (Input.after_tokens ..) ht hk, Input.after_append]

theorem accept_no (h : headKind rest ≠ k) (p q : Parse β) :
    (do if ← accept k then p else q) (s.after ts rest) = q (s.after ts rest) :=
  accept_false (Input.after_tokens ..) h p q

theorem skip_next (hk : t.kind = k) (ht : isLayout k = false) (f : Unit → Parse β) :
    (skip >>= f) (s.after ts (t :: rest)) = f () (s.after (ts ++ [t]) rest) := by
  rw [skip_bind (Input.after_tokens ..) hk ht, Input.after_append]

theorem name_next {id} (ht : t.kind = .name id) (f : String → Parse β) :
    (name >>= f) (s.after ts (t :: rest)) = f id (s.after (ts ++ [t]) rest) := by
  rw [name_bind (Input.after_tokens ..) ht, Input.after_append]

end Behind

/-- The end of most rules: the span of all that was taken, and the tree that gets it. -/
theorem finish (hs : s.tokens = ts ++ rest) (hts : ts ≠ []) (g : Span → α) :
    (spanFrom s.place >>= fun span => pure (g span)) (s.after ts rest)
      = some (g (spanOf ts), s.after ts rest) := by
  rw [spanFrom_bind, Input.spanFrom_after hs hts, pure_apply]

section Repetition

variable {item : Parse (Option α)} {R : List Token → α → Prop} {B : List Token → Prop}
  {as : List α}
  (hitem : ∀ us more a, R us a → B more → us ≠ [] ∧ Accepts item us more (some a))
  (hpiece : ∀ us more a, R us a → B (us ++ more)) (hrest : B rest)
  (hstop : Accepts item [] rest none) (h : Chain R ts as)
include hitem hpiece hrest hstop h

/-- What stands behind a piece of a repetition is what stands behind the whole, or another
piece. -/
theorem repeatFor_accepts :
    ∀ fuel, ts.length < fuel → Accepts (repeatFor item fuel) ts rest as := by
  induction h with
  | nil =>
    intro fuel hfuel s hs
    obtain ⟨fuel, rfl⟩ := Nat.exists_eq_succ_of_ne_zero (Nat.ne_of_gt hfuel)
    rw [repeatFor, hstop.bind hs]
    rfl
  | @cons us vs a as hR hchain ih =>
    intro fuel hfuel s hs
    obtain ⟨fuel, rfl⟩ := Nat.exists_eq_succ_of_ne_zero (Nat.ne_of_gt (Nat.zero_lt_of_lt hfuel))
    have hmore : B (vs ++ rest) := by
      cases hchain with
      | nil => exact hrest
      | cons hR' _ =>
        rw [List.append_assoc]
        exact hpiece _ _ _ hR'
    obtain ⟨hus, haccept⟩ := hitem us (vs ++ rest) a hR hmore
    have hlen : vs.length < fuel := by
      have hpos := List.length_pos_iff.2 hus
      rw [List.length_append] at hfuel
      omega
    rw [repeatFor, haccept.bind (by rw [hs, List.append_assoc])]
    dsimp only
    rw [(ih fuel hlen).bind (by rw [Input.after_tokens]), Input.after_append, pure_apply]

theorem many_accepts : Accepts (many item) ts rest as := by
  intro s hs
  refine repeatFor_accepts hitem hpiece hrest hstop h _ ?_ s hs
  rw [hs, List.length_append]
  omega

end Repetition

end Parse

end TypeStub.Syntax
