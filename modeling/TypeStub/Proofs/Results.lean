/-!
# Results that may be errors

How a result is taken apart that was put together from others, and what is computed about it: a
check of a result comes out true exactly if there is a value that passes it.
-/

namespace TypeStub

variable {ε α β : Type} {x : Except ε α}

theorem toOption_eq_some_iff {a} : x.toOption = some a ↔ x = .ok a := by
  cases x <;> simp [Except.toOption]

theorem any_toOption_iff {p : α → Bool} : x.toOption.any p = true ↔ ∃ a, x = .ok a ∧
    p a = true := by
  cases x <;> simp [Except.toOption]

theorem bind_eq_ok {f : α → Except ε β} {b} :
    (x >>= f) = .ok b ↔ ∃ a, x = .ok a ∧ f a = .ok b := by
  cases x <;> simp [bind, Except.bind]

theorem ok_of_bind {f : α → Except ε β} {b} (h : (x >>= f) = .ok b) :
    ∃ a, x = .ok a ∧ f a = .ok b :=
  bind_eq_ok.1 h

/-- What follows a step is done if the step returns. -/
theorem run_run_bind {σ : Type} (x : ExceptT ε (StateM σ) α)
    (f : α → ExceptT ε (StateM σ) β) (s : σ) : (x >>= f).run.run s = match x.run.run s with
      | (.ok a, s₁) => (f a).run.run s₁
      | (.error cause, s₁) => (.error cause, s₁) := by
  change (StateT.bind x.run (ExceptT.bindCont f)).run s = _
  simp only [StateT.run, StateT.bind, ExceptT.run, bind]
  rcases x s with ⟨_ | _, _⟩ <;> rfl

theorem pure_eq_ok {a b : α} : (pure a : Except ε α) = .ok b ↔ a = b :=
  ⟨Except.ok.inj, congrArg _⟩

/-- A check that fails with an error was passed. -/
theorem ok_of_guard {c : Prop} [Decidable c] {y : Except ε α} {a : α}
    (h : (if c then x else y) = .ok a) (hx : x ≠ .ok a) : ¬ c ∧ y = .ok a := by
  split at h
  · exact absurd h hx
  · next hc => exact ⟨hc, h⟩

theorem mapM_ok {k : α → Except ε β} {l : List α}
    (h : ∀ x ∈ l, ∃ y, k x = .ok y) : ∃ ys, l.mapM k = .ok ys := by
  induction l with
  | nil => exact ⟨[], rfl⟩
  | cons x l ih =>
    obtain ⟨hx, hl⟩ := List.forall_mem_cons.1 h
    obtain ⟨y, hy⟩ := hx
    obtain ⟨ys, hys⟩ := ih hl
    exact ⟨y :: ys, by rw [List.mapM_cons, hy, hys]; rfl⟩

theorem mem_of_mapM {k : α → Except ε β} {l : List α} {ys : List β}
    (h : l.mapM k = .ok ys) : ∀ y ∈ ys, ∃ x ∈ l, k x = .ok y := by
  induction l generalizing ys with
  | nil =>
    cases h
    simp
  | cons x l ih =>
    rw [List.mapM_cons] at h
    obtain ⟨y, hy, h⟩ := ok_of_bind h
    obtain ⟨more, hmore, h⟩ := ok_of_bind h
    cases h
    refine List.forall_mem_cons.2 ⟨⟨x, List.mem_cons_self, hy⟩, fun y' hy' => ?_⟩
    obtain ⟨x', hx', heq⟩ := ih hmore y' hy'
    exact ⟨x', List.mem_cons_of_mem x hx', heq⟩

end TypeStub
