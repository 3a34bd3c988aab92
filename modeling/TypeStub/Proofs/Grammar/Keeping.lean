import TypeStub.Proofs.Grammar.Soundness
/-!
# What rules keep

Rules take tokens from the front of the input, so a property of all tokens that are left stays true.
For the rules of statements and patterns this is enough; what they take is not looked at.
-/

namespace TypeStub.Syntax

open Parse

variable {α β : Type} {T : Token → Prop}

/-- The rule takes tokens from the front only. -/
class Drops (p : Parse α) : Prop where
  suffix : ∀ {s a s'}, p s = some (a, s') → s'.tokens <:+ s.tokens

theorem Reads.drops {p} {R : List Token → α → Prop} (hp : Reads p R) : Drops p where
  suffix h := by
    obtain ⟨ts, htook, _⟩ := hp _ _ _ h
    exact ⟨ts, htook.tokens.symm⟩

/-! ## Combinators -/

section Combinators

variable {p q : Parse α}

/-- A rule that looks at the input and takes nothing. -/
theorem Drops.of_look {look : Input → α} (hp : ∀ s, p s = some (look s, s)) : Drops p where
  suffix h := by
    rw [hp] at h
    cases h
    exact List.suffix_rfl

instance {a : α} : Drops (pure a : Parse α) := .of_look fun _ => rfl

instance : Drops (failure : Parse α) where
  suffix h := by cases h

theorem Drops.bind {f : α → Parse β} [Drops p] (hf : ∀ a, Drops (f a)) : Drops (p >>= f) where
  suffix h := by
    obtain ⟨a, _, h₁, h₂⟩ := bind_eq_some.1 h
    exact ((hf a).suffix h₂).trans (suffix h₁)

instance {f : α → Parse β} [Drops p] [hf : ∀ a, Drops (f a)] : Drops (p >>= f) :=
  .bind hf

instance {g : α → β} [Drops p] : Drops (g <$> p) where
  suffix h := by
    obtain ⟨_, _, h₁, h₂⟩ := map_eq_some.1 h
    cases h₂
    exact Drops.suffix h₁

instance {c : Prop} [Decidable c] [Drops p] [Drops q] : Drops (if c then p else q) := by
  split <;> infer_instance

/-- A rule that is asked for under a condition, in front of another. -/
theorem Drops.when {c : Prop} [Decidable c] {q : Parse β} [Drops p] (hq : Drops q) :
    Drops (if c then p >>= fun _ => q else q) :=
  inferInstance

instance : Drops peek := .of_look fun s => peek_apply s
instance : Drops peekSecond := .of_look fun s => peekSecond_apply s
instance : Drops here := .of_look fun s => here_apply s
instance {start} : Drops (spanFrom start) := .of_look fun _ => rfl

instance : Drops next where
  suffix {s _ _} h := by
    unfold next at h
    split at h
    · next htokens =>
      rw [htokens]
      split at h <;>
      · cases h
        exact List.suffix_cons ..
    · cases h

instance : Drops skip := by unfold skip; infer_instance
instance {k} : Drops (expect k) := by unfold expect; infer_instance
instance {k} : Drops (accept k) := by unfold accept; infer_instance
instance {k} : Drops (at? k) := by unfold at?; infer_instance
instance {d minor} : Drops (require d minor) := by unfold require; infer_instance

instance : Drops name := by
  refine .bind fun k => ?_
  split <;> infer_instance

instance [Drops p] : Drops (attempt p) where
  suffix h := by
    unfold attempt at h
    split at h
    · next h₁ =>
      cases h
      exact Drops.suffix h₁
    · cases h
      exact List.suffix_rfl

instance {item : Parse (Option α)} [Drops item] : Drops (many item) where
  suffix h := by
    have hfor : ∀ fuel, Drops (repeatFor item fuel) := by
      intro fuel
      induction fuel with
      | zero => exact inferInstanceAs (Drops failure)
      | succ fuel ih =>
        refine .bind fun o => ?_
        split <;> infer_instance
    exact (hfor _).suffix h

end Combinators

/-! ## Patterns -/

/-- What is known of the rules that patterns call. -/
class RulesDrop (r : Rules) : Prop where
  sound : ∃ d, RulesSound d r
  pattern : Drops r.pattern

section Patterns

variable {r : Rules} [hr : RulesDrop r]

-- the size of an instance doubles with each step of a rule
set_option synthInstance.maxSize 100000

theorem Drops.ofSound (r) [hr : RulesDrop r] {p : Parse α}
    {R : Dialect → List Token → α → Prop}
    (hp : ∀ {d} [RulesSound d r], Reads p (R d)) : Drops p :=
  let ⟨_, _⟩ := hr.sound
  hp.drops

instance : Drops r.pattern :=
  hr.pattern

instance : Drops (stringLiterals r) :=
  .ofSound r stringLiterals_reads

instance : Drops signedNumber := by
  refine .bind fun _ => .bind fun _ => .bind fun _ => .bind fun _ => ?_
  split <;> infer_instance

instance : Drops numberPattern := by
  refine .bind fun _ => .bind fun _ => .bind fun _ => ?_
  split
  case' h_1 | h_2 =>
    refine .when (.bind fun _ => .bind fun _ => .bind fun _ => ?_)
    split
  all_goals infer_instance

instance : Drops dottedName := by unfold dottedName; infer_instance
instance : Drops captureTarget := by unfold captureTarget; infer_instance
instance : Drops starPattern := by unfold starPattern; infer_instance

instance : Drops (literalExpr r) := by
  refine .bind fun _ => .bind fun _ => ?_
  split
  case' h_4 => split
  all_goals infer_instance

instance {p} [Drops p] : Drops (sequencePart p) := by unfold sequencePart; infer_instance
instance {p ends} [Drops p] : Drops (moreParts p ends) := by unfold moreParts; infer_instance

instance : Drops (mappingEntry r) := by
  refine .bind fun _ => ?_
  split
  case' h_1 =>
    refine .bind fun _ => ?_
    split
  all_goals infer_instance

theorem mappingEntries_drops : ∀ fuel entries, Drops (mappingEntries r fuel entries)
  | 0, _ => inferInstanceAs (Drops failure)
  | fuel + 1, _ => by
    have := mappingEntries_drops fuel
    dsimp only [mappingEntries]
    infer_instance

theorem classArguments_drops (cls) :
    ∀ fuel patterns keywords, Drops (classArguments r cls fuel patterns keywords)
  | 0, _, _ => inferInstanceAs (Drops failure)
  | fuel + 1, _, _ => by
    have := classArguments_drops cls fuel
    refine .bind fun _ => ?_
    split
    · infer_instance
    · refine .bind fun _ => .bind fun _ => ?_
      split <;> infer_instance

instance : Drops (namePattern r) := by
  refine .bind fun _ => .bind fun _ => ?_
  split
  case h_1 => exact .bind fun _ => ⟨(classArguments_drops ..).suffix⟩
  all_goals infer_instance

instance : Drops (listPattern r) := by unfold listPattern; infer_instance
instance : Drops (groupPattern r) := by unfold groupPattern; infer_instance

instance : Drops (closedPattern r) := by
  refine .bind fun _ => ?_
  split
  case h_4 => exact .bind fun _ => ⟨(mappingEntries_drops ..).suffix⟩
  case' h_5 =>
    refine .bind fun _ => ?_
    split
  all_goals infer_instance

instance : Drops (pattern r) := by unfold pattern; infer_instance
instance : Drops (casePattern r) := by unfold casePattern; infer_instance

end Patterns

/-- Patterns take tokens only, to every depth. -/
instance rules_drop (d : Dialect) : ∀ n, RulesDrop (rules d n)
  | 0 => ⟨⟨d, rules_sound d 0⟩, inferInstanceAs (Drops failure)⟩
  | n + 1 =>
    have := rules_drop d n
    ⟨⟨d, rules_sound d (n + 1)⟩, inferInstanceAs (Drops (pattern (rules d n)))⟩

/-! ## Results -/

/-- From tokens with a property the rule leaves tokens with the property, and its result has a
property of its own. -/
def Keeps (T : Token → Prop) (p : Parse α) (Q : α → Prop) : Prop :=
  ∀ s a s', (∀ t ∈ s.tokens, T t) → p s = some (a, s') → (∀ t ∈ s'.tokens, T t) ∧
    Q a

/-- A property of what is there, if anything is. -/
def IfSome (Q : α → Prop) (o : Option α) : Prop :=
  ∀ a, o = some a → Q a

theorem Took.property {s s' ts} (h : Took s ts s') (hs : ∀ t ∈ s.tokens, T t) :
    (∀ t ∈ s'.tokens, T t) ∧ ∀ t ∈ ts, T t ∧ isLayout t.kind = false := by
  rw [h.tokens] at hs
  exact ⟨fun t ht => hs t (List.mem_append_right _ ht),
    fun t ht => ⟨hs t (List.mem_append_left _ ht), h.visible t ht⟩⟩

namespace Keeps

variable {p q : Parse α} {f : α → Parse β} {Q : α → Prop} {U : β → Prop}

theorem ofDrops [Drops p] : Keeps T p fun _ => True :=
  fun _ _ _ hs h => ⟨fun t ht => hs t ((Drops.suffix h).mem ht), trivial⟩

theorem pure {a} (h : Q a) : Keeps T (Pure.pure a) Q := by
  intro s b s' hs heq
  cases heq
  exact ⟨hs, h⟩

theorem failure : Keeps T (failure : Parse α) Q := by
  intro s a s' _ heq
  cases heq

theorem bind (hp : Keeps T p Q) (hf : ∀ a, Q a → Keeps T (f a) U) : Keeps T (p >>= f) U := by
  intro s b s' hs heq
  obtain ⟨a, s₁, h₁, h₂⟩ := bind_eq_some.1 heq
  obtain ⟨hs₁, ha⟩ := hp s a s₁ hs h₁
  exact hf a ha s₁ b s' hs₁ h₂

theorem andThen [Drops p] (hf : ∀ a, Keeps T (f a) U) : Keeps T (p >>= f) U :=
  ofDrops.bind fun a _ => hf a

theorem ite {c : Prop} [Decidable c] (hp : Keeps T p Q) (hq : Keeps T q Q) :
    Keeps T (if c then p else q) Q := by
  split
  · exact hp
  · exact hq

/-- A rule that is asked for under a condition, in front of another. -/
theorem when {c : Prop} [Decidable c] [Drops p] {q} (hq : Keeps T q U) :
    Keeps T (if c then p >>= fun _ => q else q) U :=
  ite (andThen fun _ => hq) hq

/-- What has been found out holds of a result that is there. -/
theorem mapSome (hp : Keeps T p Q) : Keeps T (some <$> p) (IfSome Q) := by
  intro s b s' hs heq
  obtain ⟨a, s₁, h₁, h₂⟩ := map_eq_some.1 heq
  obtain ⟨rfl, rfl⟩ := Prod.mk.inj h₂
  obtain ⟨hs₁, ha⟩ := hp s a s₁ hs h₁
  refine ⟨hs₁, fun b hb => ?_⟩
  cases hb
  exact ha

theorem many {item} (hitem : Keeps T item (IfSome Q)) :
    Keeps T (many item) fun as => ∀ a ∈ as, Q a := by
  have hfor : ∀ fuel, Keeps T (repeatFor item fuel) fun as => ∀ a ∈ as, Q a := by
    intro fuel
    induction fuel with
    | zero => exact failure
    | succ fuel ih =>
      refine hitem.bind fun o ho => ?_
      cases o with
      | none => exact pure (by simp)
      | some a => exact ih.bind fun as has => pure (by simpa using ⟨ho a rfl, has⟩)
  exact fun s as s' hs heq => hfor _ s as s' hs heq

theorem nothing : Keeps T (Pure.pure (none : Option α)) (IfSome Q) :=
  pure fun _ h => nomatch h

theorem found {a} (h : Q a) : Keeps T (Pure.pure (some a)) (IfSome Q) := by
  refine pure fun b hb => ?_
  cases hb
  exact h

/-- What a sound rule takes has the property of the tokens and is no layout. -/
theorem ofReads {R : List Token → α → Prop} (hp : Reads p R)
    (h : ∀ ts a, (∀ t ∈ ts, T t ∧ isLayout t.kind = false) → R ts a → Q a) :
    Keeps T p Q := by
  intro s a s' hs heq
  obtain ⟨ts, htook, hR⟩ := hp s a s' heq
  obtain ⟨hrest, hts⟩ := htook.property hs
  exact ⟨hrest, h ts a hts hR⟩

end Keeps

end TypeStub.Syntax
