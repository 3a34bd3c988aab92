import TypeStub.Proofs.Grammar.Phrase
/-!
# The edges of phrases

How tightly a token binds what it starts, and how tightly it binds to what stands before it. The
first token of an expression at a level starts something at least as tight, and the token behind a
name within an expression continues it. An expression ends where the next token binds looser than
its level.
-/

namespace TypeStub.Syntax

/-! ## Levels of tokens -/

def startLevel : TokenKind → Nat
  | .name _ | .number _ | .string _ => Level.atom
  | .keyword "None" | .keyword "True" | .keyword "False" => Level.atom
  | .op "..." | .op "(" | .op "[" | .op "\x7b" => Level.atom
  | .keyword "await" => Level.await
  | .op "+" | .op "-" | .op "~" => Level.factor
  | .keyword "not" => Level.not
  | .keyword "lambda" => Level.test
  | _ => 0

/-- The tightest level at which a token continues the expression before it; zero if it never does.
A string continues the string before it. -/
def followLevel : TokenKind → Nat
  | .string _ => Level.atom + 1
  | .op "." | .op "(" | .op "[" => Level.atom
  | .op "**" => Level.power
  | .op "*" | .op "/" | .op "//" | .op "%" | .op "@" => Level.term
  | .op "+" | .op "-" => Level.arith
  | .op "<<" | .op ">>" => Level.shift
  | .op "&" => Level.bitAnd
  | .op "^" => Level.bitXor
  | .op "|" => Level.bitOr
  | .op "==" | .op "!=" | .op "<" | .op "<=" | .op ">" | .op ">=" => Level.compare
  | .keyword "in" | .keyword "is" | .keyword "not" => Level.compare
  | .keyword "and" => Level.and
  | .keyword "or" => Level.or
  | .keyword "if" => Level.test
  | _ => 0

/-- What follows does not continue an expression of the level. -/
def Stops (k : Nat) (rest : List Token) : Prop :=
  followLevel (headKind rest) < k

variable {rest ts : List Token} {kind : TokenKind}

theorem Stops.mono {k k'} (h : Stops k rest) (hk : k ≤ k') : Stops k' rest :=
  Nat.lt_of_lt_of_le h hk

theorem Stops.ne {k} (h : Stops k rest) (hk : k ≤ followLevel kind) : headKind rest ≠ kind := by
  rintro rfl
  exact absurd h (Nat.not_lt.2 hk)

theorem stops_cons {k} {t : Token} (ht : t.kind = kind) (h : followLevel kind < k) :
    Stops k (t :: rest) := by
  rw [Stops, headKind_cons, ht]
  exact h

theorem BinaryOp.followLevel_text {op : BinaryOp} : followLevel (.op op.text) = op.level := by
  cases op <;> rfl

theorem BoolOp.followLevel_text {op : BoolOp} : followLevel (.keyword op.text) = op.level := by
  cases op <;> rfl

theorem CompareOp.followLevel_kinds {op : CompareOp} (h : ts.map (·.kind) = op.kinds) :
    followLevel (headKind (ts ++ rest)) = Level.compare := by
  cases ts with
  | nil => cases op <;> cases h
  | cons t ts =>
    rw [List.cons_append, headKind_cons]
    cases op <;> obtain ⟨ht, -⟩ := List.cons.inj h <;> simp only [ht] <;> rfl

/-! ## The first token -/

theorem headKind_append {us} (h : ts ≠ []) : headKind (ts ++ us) = headKind ts := by
  obtain ⟨t, ts, rfl⟩ := List.exists_cons_of_ne_nil h
  rfl

def Form.level : Form → Nat
  | .atom => Level.atom
  | .expr k => max Level.test k
  | _ => 0

theorem startLevel_signOp {k op} (h : signOp? k = some op) : startLevel k = Level.factor := by
  unfold signOp? at h
  split at h
  · rfl
  · rfl
  · rfl
  · cases h

theorem startLevel_keywordConstant {word c} (h : keywordConstant? word = some c) :
    startLevel (.keyword word) = Level.atom := by
  unfold keywordConstant? at h
  split at h
  · rfl
  · rfl
  · rfl
  · cases h

theorem Phrase.level_le_start {d f xs} (h : Phrase d f ts xs) :
    f.level ≤ startLevel (headKind ts) := by
  induction h with
  | name ht | number ht | ellipsis ht =>
    rw [headKind_cons, ht]
    exact Nat.le_refl _
  | constant ht hc =>
    rw [headKind_cons, ht, startLevel_keywordConstant hc]
    decide
  | @strings n literals e h =>
    cases literals with
    | nil => cases h
    | cons l ls => exact Nat.le_refl _
  | group _ ho | noTuple ho | tuple ho | generator ho | noList ho | list ho | listComp ho
  | noDict ho | dict ho | dictComp ho | set ho | setComp ho =>
    rw [headKind_cons, ho]
    decide
  | atom _ ih => exact ih
  | member h _ _ ih | call h _ _ _ _ ih | callGenerator h _ _ _ _ _ ih | subscript h _ _ _ ih
  | binary _ _ h _ _ ih =>
    rw [headKind_append (h.ne_nil rfl)]
    exact ih
  | power h _ _ ih | compare h _ _ ih | ifExp h _ _ _ _ ih =>
    rw [headKind_append (h.ne_nil rfl)]
    exact Nat.le_trans (Nat.le_of_ble_eq_true rfl) ih
  | lift hk _ _ ih =>
    simp only [Form.level] at ih ⊢
    omega
  | await _ ht | inversion ht | lambda ht => rw [headKind_cons, ht]; decide
  | sign ht => rw [headKind_cons, startLevel_signOp ht]; decide
  | boolOp h _ _ ih =>
    rw [headKind_append (h.ne_nil rfl)]
    simp only [Form.level] at ih ⊢
    omega
  | _ => exact Nat.zero_le _

variable {d : Dialect} {k : Nat} {ts us : List Token} {e : Expr} {xs : List Tree}

theorem Phrase.expr_start (h : Phrase d (.expr k) ts xs) :
    Level.test ≤ startLevel (headKind ts) ∧ k ≤ startLevel (headKind ts) := by
  have hlevel := h.level_le_start
  simp only [Form.level] at hlevel
  omega

/-- An expression does not start with a token that starts only looser ones. -/
theorem Phrase.head_ne (h : Phrase d (.expr k) ts xs) (hk : startLevel kind < max Level.test k) :
    headKind ts ≠ kind := by
  rintro rfl
  exact absurd h.level_le_start (Nat.not_le.2 hk)

theorem Phrase.named_start (h : Phrase d .named ts xs) :
    Level.test ≤ startLevel (headKind ts) := by
  cases h with
  | named ht =>
    rw [headKind_cons, ht]
    exact Nat.le_of_ble_eq_true rfl
  | unnamed h => exact h.expr_start.1

theorem endsList_of_start (h : Level.test ≤ startLevel kind) : endsList kind = false := by
  unfold startLevel at h
  split at h <;> first | rfl | exact absurd h (by decide)

/-! ## The token behind a name -/

/-- A name at the start is all there is, or the token behind it binds at least as tight as `k`. -/
def NameFollowed (k : Nat) (ts : List Token) : Prop :=
  ∀ (t : Token) (id : String) (us : List Token), ts = t :: us → t.kind = .name id →
    us = [] ∨ k ≤ followLevel (headKind us)

theorem nameFollowed_of_head {k o} (ho : ∀ id, o.kind ≠ .name id) :
    NameFollowed k (o :: ts) := by
  intro t id us hts ht
  obtain ⟨rfl, -⟩ := List.cons.inj hts
  exact absurd ht (ho id)

theorem NameFollowed.append {k k' us} (h : NameFollowed k ts) (hts : ts ≠ []) (hk : k' ≤ k)
    (hus : k' ≤ followLevel (headKind us)) : NameFollowed k' (ts ++ us) := by
  intro t id vs hvs ht
  obtain ⟨t', ts, rfl⟩ := List.exists_cons_of_ne_nil hts
  cases hvs
  refine .inr (?_ : k' ≤ followLevel (headKind (ts ++ us)))
  by_cases hnil : ts = []
  · rwa [hnil, List.nil_append]
  · rw [headKind_append hnil]
    exact Nat.le_trans hk ((h _ id _ rfl ht).resolve_left hnil)

theorem Phrase.follow_comparisons (h : Phrase d (.many .comparison) ts xs) (hxs : xs ≠ []) :
    followLevel (headKind ts) = Level.compare := by
  cases h with
  | manyNil => exact absurd rfl hxs
  | manyCons h _ =>
    cases h with
    | comparison hw _ =>
      rw [List.append_assoc]
      exact CompareOp.followLevel_kinds hw

theorem Phrase.follow_operands {op : BoolOp} (h : Phrase d (.many (.operand op)) ts xs)
    (hxs : xs ≠ []) : followLevel (headKind ts) = op.level := by
  cases h with
  | manyNil => exact absurd rfl hxs
  | manyCons h _ =>
    cases h with
    | operand ht _ => rw [List.cons_append, headKind_cons, ht, BoolOp.followLevel_text]

/-- Behind a name at the start of an expression the expression goes on, unless it is the name. -/
theorem Phrase.nameFollowed {f : Form} (h : Phrase d f ts xs) : NameFollowed f.level ts := by
  induction h with
  | name =>
    intro t id us hts _
    exact .inl (List.cons.inj hts).2.symm
  | constant ht | number ht | ellipsis ht | group _ ht | noTuple ht | tuple ht | generator ht
  | noList ht | list ht | listComp ht | noDict ht | dict ht | dictComp ht | set ht | setComp ht
  | await _ ht | inversion ht | lambda ht =>
    refine nameFollowed_of_head fun id => ?_
    rw [ht]
    exact nofun
  | @strings n literals e h =>
    cases literals with
    | nil => cases h
    | cons l ls => exact nameFollowed_of_head fun id => nofun
  | sign ht =>
    refine nameFollowed_of_head fun id hid => ?_
    rw [hid] at ht
    cases ht
  | atom _ ih => exact ih
  | lift hk _ _ ih =>
    intro t id us hts ht
    refine (ih t id us hts ht).imp_right (Nat.le_trans ?_)
    simp only [Form.level]
    omega
  | member h ht _ ih | call h ht _ _ _ ih | callGenerator h ht _ _ _ _ ih
  | subscript h ht _ _ ih =>
    refine ih.append (h.ne_nil rfl) (Nat.le_refl _) ?_
    rw [headKind_cons, ht]
    exact Nat.le_refl _
  | power h ht _ ih | ifExp h ht _ _ _ ih =>
    refine ih.append (h.ne_nil rfl) (Nat.le_of_ble_eq_true rfl) ?_
    rw [headKind_cons, ht]
    exact Nat.le_refl _
  | @binary t op _ _ _ _ hop _ h ht _ ih =>
    refine ih.append (h.ne_nil rfl) (Nat.le_refl _) ?_
    rw [headKind_cons, ht, BinaryOp.followLevel_text]
    cases op <;> exact Nat.le_of_ble_eq_true rfl
  | compare h hmany hne ih =>
    refine ih.append (h.ne_nil rfl) (Nat.le_of_ble_eq_true rfl) ?_
    rw [hmany.follow_comparisons (by simpa using hne)]
    exact Nat.le_refl _
  | @boolOp op _ _ _ _ h hmany hne ih =>
    refine ih.append (h.ne_nil rfl) (by simp only [Form.level]; omega) ?_
    rw [hmany.follow_operands (by simpa using hne)]
    cases op <;> exact Nat.le_refl _
  | _ => exact fun _ _ _ _ _ => .inr (Nat.zero_le _)

end TypeStub.Syntax
