import TypeStub.Proofs.Stub.Outcome
import TypeStub.Workspace
/-!
# Commands that return

`Runs x w a w'` says that a command returns a value and takes one workspace to another. A sequence
of steps returns if each of them does, one after the other (`runs_bind`); so what a command did is
read off step by step.

`EndsIn P x w` says what the files are like when a command has ended, be it that it returned or that
it failed on the way. A sequence of steps ends well if each of them does (`endsIn_bind`). `Ends Q E
x w` also says what is returned, and tells a command that returns from one that fails.
-/

namespace TypeStub

open TypeStub.Files

namespace WorkM

variable {α β : Type} {w w' : Workspace}

/-- A command returns a value and takes one workspace to another. -/
def Runs (x : WorkM α) (w : Workspace) (a : α) (w' : Workspace) : Prop :=
  x.run.run w = (.ok a, w')

theorem any_run_iff {x : WorkM α} {p : α → Bool} :
    (x.run.run w).1.toOption.any p = true ↔ ∃ a w', Runs x w a w' ∧ p a = true := by
  rw [any_toOption_iff]
  constructor
  · rintro ⟨a, ha, hp⟩
    exact ⟨a, _, Prod.ext ha rfl, hp⟩
  · rintro ⟨a, w', hrun, hp⟩
    exact ⟨a, congrArg Prod.fst hrun, hp⟩

theorem runs_bind {x : WorkM α} {f : α → WorkM β} {b : β} :
    Runs (x >>= f) w b w' ↔ ∃ a w₁, Runs x w a w₁ ∧ Runs (f a) w₁ b w' := by
  unfold Runs
  rw [run_run_bind]
  rcases x.run.run w with ⟨cause | a, w₁⟩
  · constructor
    · intro h
      cases h
    · rintro ⟨_, _, h, _⟩
      cases h
  · constructor
    · intro h
      exact ⟨a, w₁, rfl, h⟩
    · rintro ⟨_, _, h, hf⟩
      cases h
      exact hf

@[simp] theorem runs_pure {a b : α} : Runs (pure a) w b w' ↔ b = a ∧ w' = w := by
  change ((Except.ok a : Except Failure α), w) = (Except.ok b, w') ↔ _
  simp [eq_comm]

@[simp] theorem runs_throw {cause : Failure} {a : α} : ¬ Runs (throw cause) w a w' := by
  change ¬ ((Except.error cause : Except Failure α), w) = (Except.ok a, w')
  simp

@[simp] theorem runs_files {s} : Runs files w s w' ↔ s = w.store ∧ w' = w := by
  change ((Except.ok w.store : Except Failure Store), w) = (Except.ok s, w') ↔ _
  simp [eq_comm]

theorem runs_get_bind {f : Workspace → WorkM β} {b : β} :
    Runs (get >>= f) w b w' ↔ Runs (f w) w b w' := Iff.rfl

theorem runs_files_bind {f : Store → WorkM β} {b : β} :
    Runs (files >>= f) w b w' ↔ Runs (f w.store) w b w' := by
  simp only [runs_bind, runs_files]
  constructor
  · rintro ⟨_, _, ⟨rfl, rfl⟩, h⟩
    exact h
  · intro h
    exact ⟨_, _, ⟨rfl, rfl⟩, h⟩

theorem runs_ofExcept {ε : Type} {cause : ε → Failure} {x : Except ε α} {a : α} :
    Runs (ofExcept cause x) w a w' ↔ x = .ok a ∧ w' = w := by
  cases x with
  | error e => simp [ofExcept]
  | ok b => simp [ofExcept, eq_comm]

theorem runs_look {f : Store → Except Fault α} {a : α} :
    Runs (look f) w a w' ↔ f w.store = .ok a ∧ w' = w := by
  rw [look, runs_files_bind, runs_ofExcept]

theorem runs_modify {f : Workspace → Workspace} {u : Unit} :
    Runs (modify f) w u w' ↔ w' = f w := by
  change ((Except.ok () : Except Failure Unit), f w) = (Except.ok u, w') ↔ _
  simp [eq_comm]

theorem of_runs_alter {f : Store → Except Fault Store} {u} (h : Runs (alter f) w u w') :
    f w.store = .ok w'.store := by
  obtain ⟨store, w₁, hlook, hmodify⟩ := runs_bind.1 h
  obtain ⟨hstore, rfl⟩ := runs_look.1 hlook
  rw [hstore, runs_modify.1 hmodify]

theorem store_of_say {line u} (h : Runs (say line) w u w') : w'.store = w.store := by
  rw [runs_modify.1 h]

theorem store_of_forM_say {lines : List String} {u : Unit} (h : Runs (lines.forM say) w u w') :
    w'.store = w.store := by
  induction lines generalizing w with
  | nil =>
    obtain ⟨_, rfl⟩ := runs_pure.1 h
    rfl
  | cons line rest ih =>
    obtain ⟨_, w₁, hline, h⟩ := runs_bind.1 h
    rw [ih h, store_of_say hline]

theorem of_runs_ofStub {x : StubM α} {a : α} (h : Runs (ofStub x) w a w') :
    x.outcome = .ok a ∧ w'.store = w.store := by
  obtain ⟨_, w₁, hlines, h⟩ := runs_bind.1 h
  obtain ⟨houtcome, rfl⟩ := runs_ofExcept.1 h
  exact ⟨houtcome, store_of_forM_say hlines⟩

/-! ## Commands that may fail -/

theorem run_bind_of_runs {x : WorkM α} {f : α → WorkM β} {a : α} {w₁}
    (h : Runs x w a w₁) : (x >>= f).run.run w = (f a).run.run w₁ := by
  rw [run_run_bind, show x.run.run w = _ from h]

theorem run_bind_of_error {x : WorkM α} {f : α → WorkM β} {cause w₁}
    (h : x.run.run w = (.error cause, w₁)) : (x >>= f).run.run w = (.error cause, w₁) := by
  rw [run_run_bind, h]

/-- A call is recorded, and it returns unless the program cannot be run. -/
theorem call_cases (i : Invocation) (w : Workspace) :
    (∃ outcome w', Runs (call i) w outcome w' ∧ w'.calls = w.calls ++ [i]) ∨
      ∃ fault w', (call i).run.run w = (.error (.file fault), w') ∧
      w'.calls = w.calls ++ [i] := by
  have hmodify : ∀ {f : Workspace → Workspace} {v}, Runs (modify f) v () (f v) :=
    runs_modify.2 rfl
  unfold Runs call
  rw [run_bind_of_runs hmodify, run_bind_of_runs (show Runs get _ _ _ from rfl)]
  split
  · exact .inr ⟨_, _, rfl, rfl⟩
  · next script programs _ =>
    rw [run_bind_of_runs hmodify]
    cases hscript : script.run i w.store with
    | error fault =>
      refine .inr ⟨fault, { w with calls := w.calls ++ [i], programs },
        run_bind_of_error ?_, rfl⟩
      exact congrArg (fun x => (ofExcept Failure.file x).run.run _) hscript
    | ok made =>
      have hlook : Runs (look (script.run i)) { w with calls := w.calls ++ [i], programs } made _ :=
        runs_look.2 ⟨hscript, rfl⟩
      exact .inl ⟨made.1, { w with calls := w.calls ++ [i], programs, store := made.2 },
        run_bind_of_runs hlook, rfl⟩

/-! ## Commands that end -/

section EndsIn

variable {P : Store → Prop}

/-- The files have a property when a command has ended, whether it returned or failed. -/
def EndsIn (P : Store → Prop) (x : WorkM α) (w : Workspace) : Prop :=
  P (x.run.run w).2.store

theorem endsIn_pure {a : α} (h : P w.store) : EndsIn P (pure a) w := h

theorem endsIn_throw {cause} (h : P w.store) : EndsIn P (throw cause : WorkM α) w := h

theorem endsIn_bind {x} {f : α → WorkM β} (hx : EndsIn P x w)
    (hf : ∀ a w₁, Runs x w a w₁ → P w₁.store → EndsIn P (f a) w₁) :
    EndsIn P (x >>= f) w := by
  unfold EndsIn at hx ⊢
  rw [run_run_bind]
  rcases hrun : x.run.run w with ⟨cause | a, w₁⟩
  · rwa [hrun] at hx
  · rw [hrun] at hx
    exact hf a w₁ hrun hx

theorem endsIn_files_bind {f : Store → WorkM β} (h : EndsIn P (f w.store) w) :
    EndsIn P (files >>= f) w := h

theorem endsIn_ofExcept {ε : Type} {cause : ε → Failure} (x : Except ε α) (h : P w.store) :
    EndsIn P (ofExcept cause x) w := by
  cases x with
  | error e => exact endsIn_throw h
  | ok a => exact endsIn_pure h

theorem endsIn_look (f : Store → Except Fault α) (h : P w.store) : EndsIn P (look f) w :=
  endsIn_files_bind (endsIn_ofExcept _ h)

/-- If files cannot be changed they stay as they were. -/
theorem endsIn_alter {f : Store → Except Fault Store} (h : P w.store)
    (hf : ∀ s, f w.store = .ok s → P s) : EndsIn P (alter f) w := by
  refine endsIn_bind (endsIn_look f h) fun s w₁ hlook _ => ?_
  exact hf s (runs_look.1 hlook).1

theorem endsIn_say (line : String) (h : P w.store) : EndsIn P (say line) w := h

theorem endsIn_ofStub (x : StubM α) (h : P w.store) : EndsIn P (ofStub x) w := by
  have hlines : ∀ (lines : List String) (w : Workspace), P w.store →
      EndsIn P (lines.forM say) w := by
    intro lines
    induction lines with
    | nil => exact fun w h => endsIn_pure h
    | cons line rest ih =>
      exact fun w h => endsIn_bind (endsIn_say line h) fun _ w₁ _ h₁ => ih w₁ h₁
  exact endsIn_bind (hlines _ w h) fun _ _ _ h₁ => endsIn_ofExcept _ h₁

end EndsIn

/-! ## Returning and failing -/

section Ends

variable {Q : α → Workspace → Prop} {R : β → Workspace → Prop} {E : Workspace → Prop}
  {x : WorkM α} {a : α}

/-- A command returns a value that fits the workspace it leaves, or what it leaves when it fails has
a property. -/
def Ends (Q : α → Workspace → Prop) (E : Workspace → Prop) (x : WorkM α) (w : Workspace) :
    Prop :=
  match x.run.run w with
  | (.ok a, w') => Q a w'
  | (.error _, w') => E w'

theorem ends_pure (h : Q a w) : Ends Q E (pure a) w := h

theorem ends_throw {cause} (h : E w) : Ends Q E (throw cause) w := h

theorem ends_get_bind {f : Workspace → WorkM β} (h : Ends R E (f w) w) :
    Ends R E (get >>= f) w := h

theorem ends_files_bind {f : Store → WorkM β} (h : Ends R E (f w.store) w) :
    Ends R E (files >>= f) w := h

theorem ends_of_runs (hrun : Runs x w a w') (h : Q a w') : Ends Q E x w := by
  unfold Ends
  rwa [show x.run.run w = _ from hrun]

theorem Ends.of_runs (h : Ends Q E x w) (hrun : Runs x w a w') : Q a w' := by
  unfold Ends at h
  rwa [show x.run.run w = _ from hrun] at h

theorem ends_runs : Ends (Runs x w) (fun _ => True) x w := by
  unfold Ends
  split
  · next hrun => exact hrun
  · trivial

theorem Ends.returns (h : Ends Q (fun _ => False) x w) : ∃ a w', Runs x w a w' ∧ Q a w' := by
  unfold Ends at h
  rcases hrun : x.run.run w with ⟨cause | a, w'⟩ <;> rw [hrun] at h
  · exact h.elim
  · exact ⟨a, w', hrun, h⟩

theorem Ends.bind {f : α → WorkM β} (hx : Ends Q E x w)
    (hf : ∀ a w₁, Q a w₁ → Ends R E (f a) w₁) : Ends R E (x >>= f) w := by
  unfold Ends at hx ⊢
  rw [run_run_bind]
  rcases hrun : x.run.run w with ⟨cause | a, w₁⟩ <;> rw [hrun] at hx
  · exact hx
  · exact hf a w₁ hx

theorem Ends.imp {Q' : α → Workspace → Prop} {E' : Workspace → Prop} (h : Ends Q E x w)
    (hQ : ∀ a v, Q a v → Q' a v) (hE : ∀ v, E v → E' v) : Ends Q' E' x w := by
  unfold Ends at h ⊢
  rcases hrun : x.run.run w with ⟨cause | a, w'⟩ <;> rw [hrun] at h
  · exact hE w' h
  · exact hQ a w' h

theorem ends_foldlM {I : β → Workspace → Prop} {f : β → α → WorkM β} {l : List α}
    (hf : ∀ b, ∀ a ∈ l, ∀ w, I b w → Ends I E (f b a) w) (b : β) (h : I b w) :
    Ends I E (l.foldlM f b) w := by
  induction l generalizing b w with
  | nil => exact ends_pure h
  | cons a rest ih =>
    rw [List.foldlM_cons]
    exact (hf b a List.mem_cons_self w h).bind fun b₁ w₁ h₁ =>
      ih (fun b a ha => hf b a (List.mem_cons_of_mem _ ha)) b₁ h₁

theorem endsIn_iff {P : Store → Prop} :
    EndsIn P x w ↔ Ends (fun _ v => P v.store) (fun v => P v.store) x w := by
  unfold EndsIn Ends
  rcases x.run.run w with ⟨_ | _, _⟩ <;> rfl

end Ends

end WorkM

end TypeStub
