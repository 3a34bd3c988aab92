import TypeStub.Syntax.Parser.Core
/-!
# Taking tokens

What the small parsers do to the tokens that are left, as equations, and what it means that a rule
takes a stretch of tokens. The state behind a stretch depends on the stretch only: what is left, and
where the last token of the stretch ended.
-/

namespace TypeStub.Syntax

/-! ## States -/

def headKind : List Token → TokenKind
  | t :: _ => t.kind
  | [] => .endMarker

def secondKind : List Token → TokenKind
  | _ :: t :: _ => t.kind
  | _ => .endMarker

@[simp] theorem headKind_cons (t : Token) (ts : List Token) : headKind (t :: ts) = t.kind := rfl

@[simp] theorem secondKind_cons (a b : Token) (ts : List Token) :
    secondKind (a :: b :: ts) = b.kind := rfl

theorem secondKind_eq (t : Token) (ts : List Token) : secondKind (t :: ts) = headKind ts := by
  cases ts <;> rfl

theorem exists_of_headKind {ts k} (h : headKind ts = k) (hk : k ≠ .endMarker) :
    ∃ t rest, ts = t :: rest ∧ t.kind = k := by
  cases ts with
  | nil => exact absurd h.symm hk
  | cons t rest => exact ⟨t, rest, rfl, h⟩

namespace Input

def place (s : Input) : Place :=
  match s.tokens with
  | t :: _ => { line := t.span.line, col := t.span.col }
  | [] => { line := s.endLine, col := s.endCol }

def spanFrom (s : Input) (start : Place) : Span :=
  { line := start.line, col := start.col, endLine := s.endLine, endCol := s.endCol }

/-- The state behind a stretch of tokens, of which `rest` is left. -/
def after (s : Input) (ts rest : List Token) : Input :=
  match ts.getLast? with
  | none => { s with tokens := rest }
  | some t => { tokens := rest, endLine := t.span.endLine, endCol := t.span.endCol }

@[simp] theorem after_tokens (s : Input) (ts rest : List Token) :
    (s.after ts rest).tokens = rest := by
  unfold after
  split <;> rfl

theorem after_nil (s : Input) : s.after [] s.tokens = s := rfl

theorem after_append (s : Input) (ts us mid rest : List Token) :
    (s.after ts mid).after us rest = s.after (ts ++ us) rest := by
  unfold after
  rw [List.getLast?_append]
  cases us.getLast? with
  | none => cases ts.getLast? <;> rfl
  | some t => rfl

end Input

def spanOf (ts : List Token) : Span :=
  match ts.head?, ts.getLast? with
  | some a, some b =>
    { line := a.span.line, col := a.span.col, endLine := b.span.endLine, endCol := b.span.endCol }
  | _, _ => default

theorem Input.spanFrom_after {s : Input} {ts rest more} (hs : s.tokens = ts ++ more)
    (hts : ts ≠ []) : (s.after ts rest).spanFrom s.place = spanOf ts := by
  obtain ⟨t, us, rfl⟩ := List.exists_cons_of_ne_nil hts
  have hlast : (t :: us).getLast? = some ((t :: us).getLast hts) :=
    List.getLast?_eq_some_getLast hts
  simp only [Input.spanFrom, Input.after, Input.place, spanOf, hs, hlast, List.cons_append,
    List.head?_cons]

/-! ## The small parsers

Each of them is followed by the rest of a rule, so the equations are about sequencing. -/

namespace Parse

variable {α β : Type}

variable {s : Input} {rest : List Token}

theorem bind_eq_some {p} {f : α → Parse β} {r} :
    (p >>= f) s = some r ↔ ∃ a s', p s = some (a, s') ∧ f a s' = some r := by
  simp [bind, StateT.bind, Option.bind_eq_some_iff]

theorem map_eq_some {p : Parse α} {f : α → β} {r : β × Input} :
    (f <$> p) s = some r ↔ ∃ a s', p s = some (a, s') ∧ (f a, s') = r := by
  simp [Functor.map, StateT.map, bind, Option.bind_eq_some_iff, pure]

theorem pure_apply (a : α) (s : Input) : (pure a : Parse α) s = some (a, s) := rfl

@[simp] theorem failure_apply (s : Input) : (failure : Parse α) s = none := rfl

theorem bind_of_eq {p} {f : α → Parse β} {s' a} (h : p s = some (a, s')) :
    (p >>= f) s = f a s' := by
  simp [bind, StateT.bind, h]

theorem peek_apply (s : Input) : peek s = some (headKind s.tokens, s) := by
  unfold peek
  cases s.tokens <;> rfl

theorem peekSecond_apply (s : Input) : peekSecond s = some (secondKind s.tokens, s) := by
  obtain ⟨tokens, l, c⟩ := s
  cases tokens with
  | nil => rfl
  | cons a rest => cases rest <;> rfl

theorem here_apply (s : Input) : here s = some (s.place, s) := by
  obtain ⟨tokens, l, c⟩ := s
  cases tokens <;> rfl

@[simp] theorem peek_bind (f : TokenKind → Parse β) (s : Input) :
    (peek >>= f) s = f (headKind s.tokens) s :=
  bind_of_eq (peek_apply s)

@[simp] theorem peekSecond_bind (f : TokenKind → Parse β) (s : Input) :
    (peekSecond >>= f) s = f (secondKind s.tokens) s :=
  bind_of_eq (peekSecond_apply s)

@[simp] theorem here_bind (f : Place → Parse β) (s : Input) : (here >>= f) s = f s.place s :=
  bind_of_eq (here_apply s)

@[simp] theorem spanFrom_bind (start : Place) (f : Span → Parse β) (s : Input) :
    (spanFrom start >>= f) s = f (s.spanFrom start) s := rfl

@[simp] theorem at?_bind (k : TokenKind) (f : Bool → Parse β) (s : Input) :
    (at? k >>= f) s = f (headKind s.tokens == k) s := by
  rw [at?, bind_assoc, peek_bind, pure_bind]

@[simp] theorem require_bind (d : Dialect) (minor : Nat) (f : Unit → Parse β) (s : Input) :
    (require d minor >>= f) s = if d.minor < minor then none else f () s := by
  unfold require
  split <;> rfl

theorem skip_bind {t k} (hs : s.tokens = t :: rest) (hk : t.kind = k) (ht : isLayout k = false)
    (f : Unit → Parse β) : (skip >>= f) s = f () (s.after [t] rest) := by
  subst hk
  have h : skip s = some ((), s.after [t] rest) := by
    simp [skip, bind, StateT.bind, next, hs, ht, pure_apply, Input.after]
  exact bind_of_eq h

theorem expect_bind {t k} (hs : s.tokens = t :: rest) (hk : t.kind = k) (ht : isLayout k = false)
    (f : Unit → Parse β) : (expect k >>= f) s = f () (s.after [t] rest) := by
  subst hk
  rw [expect, bind_assoc, peek_bind, hs, headKind_cons, beq_self_eq_true, if_pos rfl]
  exact skip_bind hs rfl ht f

theorem accept_bind_true {t k} (hs : s.tokens = t :: rest) (hk : t.kind = k)
    (ht : isLayout k = false) (f : Bool → Parse β) :
    (accept k >>= f) s = f true (s.after [t] rest) := by
  subst hk
  rw [accept, bind_assoc, peek_bind, hs, headKind_cons, beq_self_eq_true, if_pos rfl, bind_assoc,
    skip_bind hs rfl ht, pure_bind]

theorem accept_bind_false {k} (h : headKind s.tokens ≠ k) (f : Bool → Parse β) :
    (accept k >>= f) s = f false s := by
  rw [accept, bind_assoc, peek_bind, if_neg (by simpa using h), pure_bind]

theorem name_bind {t id} (hs : s.tokens = t :: rest) (hk : t.kind = .name id)
    (f : String → Parse β) : (name >>= f) s = f id (s.after [t] rest) := by
  rw [name, bind_assoc, peek_bind, hs, headKind_cons, hk]
  simp only
  rw [bind_assoc, skip_bind hs hk rfl, pure_bind]

end Parse

/-! ## Stretches of tokens -/

/-- Between two states exactly the tokens `ts` were taken, none of which is layout. -/
structure Took (s : Input) (ts : List Token) (s' : Input) : Prop where
  tokens : s.tokens = ts ++ s'.tokens
  state : s' = s.after ts s'.tokens
  visible : ∀ t ∈ ts, Parse.isLayout t.kind = false

namespace Took

variable {s s' s'' : Input} {ts us : List Token}

theorem refl (s : Input) : Took s [] s :=
  ⟨rfl, rfl, by simp⟩

theorem eq_of_nil (h : Took s [] s') : s' = s := by
  have htok : s'.tokens = s.tokens := by simpa using h.tokens.symm
  rw [h.state, htok, Input.after_nil]

theorem single {t rest} (hs : s.tokens = t :: rest) (ht : Parse.isLayout t.kind = false) :
    Took s [t] (s.after [t] rest) :=
  ⟨by simpa using hs, by simp, by simpa using ht⟩

theorem trans (h : Took s ts s') (h' : Took s' us s'') : Took s (ts ++ us) s'' where
  tokens := by rw [h.tokens, h'.tokens, List.append_assoc]
  state := by
    have hstate := h'.state
    rw [h.state, Input.after_append] at hstate
    exact hstate
  visible := by
    intro t ht
    rcases List.mem_append.1 ht with ht | ht
    · exact h.visible t ht
    · exact h'.visible t ht

theorem cons {t} (h : Took s [t] s') (h' : Took s' us s'') : Took s (t :: us) s'' :=
  h.trans h'

theorem secondKind {t} (h : Took s [t] s') : secondKind s.tokens = headKind s'.tokens := by
  rw [h.tokens]
  exact secondKind_eq t _

theorem headKind {t} (h : Took s (t :: ts) s') : headKind s.tokens = t.kind := by
  rw [h.tokens]
  rfl

theorem still (h : Took s ts s') (h' : Took s' [] s'') : Took s ts s'' := by
  simpa using h.trans h'

theorem span (h : Took s ts s') (hts : ts ≠ []) : s'.spanFrom s.place = spanOf ts := by
  rw [h.state]
  exact Input.spanFrom_after h.tokens hts

end Took

/-! ## Rules that take stretches -/

variable {α β : Type}

/-- Whatever the rule reads, it takes a stretch of tokens that stands in the relation to the
result. -/
def Reads (p : Parse α) (R : List Token → α → Prop) : Prop :=
  ∀ s a s', p s = some (a, s') → ∃ ts, Took s ts s' ∧ R ts a

theorem Reads.imp {p} {R R' : List Token → α → Prop} (hp : Reads p R)
    (h : ∀ ts a, R ts a → R' ts a) : Reads p R' := by
  intro s a s' hs
  obtain ⟨ts, htook, hR⟩ := hp s a s' hs
  exact ⟨ts, htook, h ts a hR⟩

/-- The relation for a result that may be missing: then nothing is taken. -/
def Optional (R : List Token → α → Prop) (ts : List Token) : Option α → Prop
  | none => ts = []
  | some a => R ts a

/-- The relation for several results in a row. -/
inductive Chain (R : List Token → α → Prop) : List Token → List α → Prop
  | nil : Chain R [] []
  | cons {ts us a as} :
      R ts a → Chain R us as → Chain R (ts ++ us) (a :: as)

namespace Parse

variable {p : Parse α} {R : List Token → α → Prop} {s : Input} {r : β × Input}
  {k : TokenKind}

theorem pure_reads {a} (h : R [] a) : Reads (pure a) R := by
  intro s b s' hb
  cases hb
  exact ⟨[], Took.refl _, h⟩

theorem of_bind {f : α → Parse β} (hp : Reads p R) (h : (p >>= f) s = some r) :
    ∃ a ts s', Took s ts s' ∧ R ts a ∧ f a s' = some r := by
  obtain ⟨a, s', hps, hf⟩ := bind_eq_some.1 h
  obtain ⟨ts, htook, hR⟩ := hp s a s' hps
  exact ⟨a, ts, s', htook, hR, hf⟩

theorem of_ite_bind {c : Prop} [Decidable c] {q} {f : α → Parse β} (hp : c → Reads p R)
    (hq : ¬c → Reads q R) (h : (if c then p >>= f else q >>= f) s = some r) :
    ∃ a ts s', Took s ts s' ∧ R ts a ∧ f a s' = some r := by
  split at h
  · next hc => exact of_bind (hp hc) h
  · next hc => exact of_bind (hq hc) h

theorem of_skip {f : Unit → Parse β} (hk : headKind s.tokens = k) (hv : isLayout k = false)
    (h : (skip >>= f) s = some r) : ∃ t s', t.kind = k ∧ Took s [t] s' ∧
    f () s' = some r := by
  obtain ⟨t, rest, hs, ht⟩ := exists_of_headKind hk (by rintro rfl; cases hv)
  have hvis : isLayout t.kind = false := by rw [ht]; exact hv
  rw [skip_bind hs ht hv] at h
  exact ⟨t, _, ht, Took.single hs hvis, h⟩

theorem of_expect {f : Unit → Parse β} (hv : isLayout k = false)
    (h : (expect k >>= f) s = some r) :
    ∃ t s', t.kind = k ∧ Took s [t] s' ∧ f () s' = some r := by
  rw [expect, bind_assoc, peek_bind] at h
  split at h
  case isTrue hk => exact of_skip (by simpa using hk) hv h
  case isFalse => cases h

theorem of_accept {f : Bool → Parse β} (hv : isLayout k = false)
    (h : (accept k >>= f) s = some r) :
    (∃ t s', t.kind = k ∧ Took s [t] s' ∧ f true s' = some r) ∨
      headKind s.tokens ≠ k ∧ f false s = some r := by
  by_cases hk : headKind s.tokens = k
  · obtain ⟨t, rest, hs, ht⟩ := exists_of_headKind hk (by rintro rfl; cases hv)
    rw [accept_bind_true hs ht hv] at h
    exact .inl ⟨t, _, ht, Took.single hs (by rw [ht]; exact hv), h⟩
  · rw [accept_bind_false hk] at h
    exact .inr ⟨hk, h⟩

theorem of_name {f : String → Parse β} (h : (name >>= f) s = some r) :
    ∃ id t s', t.kind = .name id ∧ Took s [t] s' ∧ f id s' = some r := by
  rw [name, bind_assoc, peek_bind] at h
  split at h
  · next id hk =>
    rw [bind_assoc] at h
    obtain ⟨t, s', ht, htook, h⟩ := of_skip hk rfl h
    exact ⟨id, t, s', ht, htook, h⟩
  · cases h

theorem repeatFor_reads {item} (hitem : Reads item (Optional R)) :
    ∀ fuel, Reads (repeatFor item fuel) (Chain R)
  | 0 => by
    intro s as s' h
    cases h
  | fuel + 1 => by
    intro s as s' h
    obtain ⟨o, ts, s₁, htook, hR, h⟩ := of_bind hitem h
    cases o with
    | none =>
      cases h
      obtain rfl : ts = [] := hR
      exact ⟨[], htook, .nil⟩
    | some a =>
      obtain ⟨as', us, s₂, htook', hchain, h⟩ := of_bind (repeatFor_reads hitem fuel) h
      cases h
      exact ⟨ts ++ us, htook.trans htook', .cons hR hchain⟩

theorem many_reads {item} (hitem : Reads item (Optional R)) : Reads (many item) (Chain R) := by
  intro s as s' h
  exact repeatFor_reads hitem _ s as s' h

end Parse

end TypeStub.Syntax
