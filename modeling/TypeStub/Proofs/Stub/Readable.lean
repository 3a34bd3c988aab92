import TypeStub.Config.Valid
/-!
# Readable filters

A filter whose patterns are all regular expressions gives an answer in every context.
-/

namespace TypeStub

namespace Filter

namespace Condition

mutual

/-- Every pattern of a condition is a regular expression. -/
def Readable : Condition → Prop
  | .const _ => True
  | .asks _ pattern => ∃ r, Regex.read pattern = .ok r
  | .not operand => operand.Readable
  | .and operands => ReadableAll operands
  | .or operands => ReadableAll operands

/-- Every pattern of several conditions is a regular expression. -/
def ReadableAll : List Condition → Prop
  | [] => True
  | c :: rest => c.Readable ∧ ReadableAll rest

end

instance (pattern : List Nat) : Decidable (∃ r, Regex.read pattern = .ok r) :=
  match Regex.read pattern with
  | .ok r => isTrue ⟨r, rfl⟩
  | .error _ => isFalse fun ⟨_, h⟩ => nomatch h

mutual

def decideReadable : (c : Condition) → Decidable c.Readable
  | .const _ => isTrue trivial
  | .asks _ pattern => inferInstanceAs (Decidable (∃ r, Regex.read pattern = .ok r))
  | .not operand => decideReadable operand
  | .and operands => decideReadableAll operands
  | .or operands => decideReadableAll operands

def decideReadableAll : (cs : List Condition) → Decidable (ReadableAll cs)
  | [] => isTrue trivial
  | c :: rest =>
    match decideReadable c, decideReadableAll rest with
    | isTrue h, isTrue hs => isTrue ⟨h, hs⟩
    | isFalse h, _ => isFalse fun hall => h hall.1
    | _, isFalse hs => isFalse fun hall => hs hall.2

end

instance (c : Condition) : Decidable c.Readable := decideReadable c

theorem askEval_ok {subject pattern} (ctx : Context) (h : ∃ r, Regex.read pattern = .ok r) :
    ∃ b, askEval subject pattern ctx = .ok b := by
  obtain ⟨r, hr⟩ := h
  unfold askEval Regex.matchesAny
  split
  · exact ⟨_, rfl⟩
  · rw [hr]
    exact ⟨_, rfl⟩

mutual

theorem eval_ok (ctx : Context) : {c : Condition} → c.Readable → ∃ b, c.eval ctx = .ok b
  | .const value, _ => ⟨value, by rw [eval]⟩
  | .asks subject pattern, h => by
    rw [eval]
    exact askEval_ok ctx h
  | .not operand, h => by
    obtain ⟨b, hb⟩ := eval_ok ctx (c := operand) h
    exact ⟨!b, by rw [eval, hb]; rfl⟩
  | .and operands, h => by
    rw [eval]
    exact evalAnd_ok ctx h
  | .or operands, h => by
    rw [eval]
    exact evalOr_ok ctx h

theorem evalAnd_ok (ctx : Context) : {cs : List Condition} → ReadableAll cs →
    ∃ b, evalAnd ctx cs = .ok b
  | [], _ => ⟨true, by rw [evalAnd]⟩
  | c :: rest, h => by
    obtain ⟨b, hb⟩ := eval_ok ctx h.1
    obtain ⟨b', hb'⟩ := evalAnd_ok ctx h.2
    rw [evalAnd, hb]
    cases b with
    | true => exact ⟨b', hb'⟩
    | false => exact ⟨false, rfl⟩

theorem evalOr_ok (ctx : Context) : {cs : List Condition} → ReadableAll cs →
    ∃ b, evalOr ctx cs = .ok b
  | [], _ => ⟨false, by rw [evalOr]⟩
  | c :: rest, h => by
    obtain ⟨b, hb⟩ := eval_ok ctx h.1
    obtain ⟨b', hb'⟩ := evalOr_ok ctx h.2
    rw [evalOr, hb]
    cases b with
    | true => exact ⟨true, rfl⟩
    | false => exact ⟨b', hb'⟩

end

end Condition

/-- Whether a filter holds in a context; one that gives no answer does not. -/
def Holds (f : Filter) (ctx : Context) : Prop :=
  f.isMatch ctx = .ok true

theorem isMatch_eq_ok {f : Filter} (h : f.condition.Readable) (ctx : Context) :
    ∃ b : Bool, f.isMatch ctx = .ok b ∧ (b = true ↔ f.Holds ctx) := by
  obtain ⟨b, hb⟩ := Condition.eval_ok ctx h
  refine ⟨b, hb, ?_⟩
  rw [Holds, isMatch, hb, Except.ok.injEq]

end Filter

namespace ValidConfig

/-- Every pattern of the filters that decide about nodes is a regular expression. -/
structure Readable (c : ValidConfig) : Prop where
  keepDefinitions : c.keepDefinitions.condition.Readable
  keepTrailingDocstrings : c.keepTrailingDocstrings.condition.Readable
  addImplicitNoneReturn : c.addImplicitNoneReturn.condition.Readable
  keepIfStatements : c.keepIfStatements.condition.Readable
  flattenIf : c.flattenIf.condition.Readable
  addRedundantEllipsis : c.addRedundantEllipsis.condition.Readable
  keepVariableValue : c.keepVariableValue.condition.Readable
  keepUnusedImports : c.keepUnusedImports.condition.Readable

instance (c : ValidConfig) : Decidable c.Readable :=
  decidable_of_iff
    (c.keepDefinitions.condition.Readable ∧ c.keepTrailingDocstrings.condition.Readable ∧
      c.addImplicitNoneReturn.condition.Readable ∧ c.keepIfStatements.condition.Readable ∧
      c.flattenIf.condition.Readable ∧ c.addRedundantEllipsis.condition.Readable ∧
      c.keepVariableValue.condition.Readable ∧ c.keepUnusedImports.condition.Readable)
    ⟨fun ⟨h₁, h₂, h₃, h₄, h₅, h₆, h₇, h₈⟩ =>
    ⟨h₁, h₂, h₃, h₄, h₅, h₆, h₇, h₈⟩,
      fun ⟨h₁, h₂, h₃, h₄, h₅, h₆, h₇, h₈⟩ =>
      ⟨h₁, h₂, h₃, h₄, h₅, h₆, h₇, h₈⟩⟩

end ValidConfig

end TypeStub
