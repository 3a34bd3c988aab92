import TypeStub.Comparison.Chunk
import Mathlib.Data.List.Chain
/-!
# A table shows every difference

Chunks hold the lines of a comparison, kind by kind and in order; cutting them down touches shared
lines only; and the coloured rows of a table hold every line that one text has alone. All three hold
for any lines of a comparison, whatever texts they come from.
-/

namespace TypeStub

open TypeStub.Text

/-- One of the two texts of a comparison. -/
inductive Side
  | left
  | right
  deriving DecidableEq, Repr

namespace Comparison

def Chunk.lines : Side → Chunk → List String
  | .left, c => c.left
  | .right, c => c.right

variable {c : Chunk} {cs : List Chunk}

/-! ## Chunks -/

/-- Neighbours are of different kinds, and the sides of shared chunks agree. -/
structure Alternate (cs : List Chunk) : Prop where
  kinds : cs.IsChain fun c d => c.shared ≠ d.shared
  sides : ∀ c ∈ cs, c.shared = true → c.left = c.right

theorem Alternate.consChunk (h : Alternate cs) (hc : c.shared = true → c.left = c.right) :
    Alternate (consChunk c cs) := by
  cases cs with
  | nil => exact ⟨.singleton c, by simpa [Comparison.consChunk] using hc⟩
  | cons d rest =>
    obtain ⟨hkinds, hsides⟩ := h
    rw [Comparison.consChunk]
    split
    · next hsame =>
      have hsame : c.shared = d.shared := by simpa using hsame
      refine ⟨?_, List.forall_mem_cons.2 ⟨fun hshared => ?_, fun e he =>
        hsides e (.tail d he)⟩⟩
      · cases hkinds with
        | singleton => exact .singleton _
        | cons_cons hne hrest => exact .cons_cons (by rwa [hsame]) hrest
      · rw [hc hshared, hsides d (.head rest) (hsame ▸ hshared)]
    · next hne =>
      exact ⟨.cons_cons (by simpa using hne) hkinds, List.forall_mem_cons.2 ⟨hc, hsides⟩⟩

/-- The cells hold the texts, each in a cell of its own and in order; what other cells there are is
empty. -/
inductive Filled : List String → List String → Prop
  | nil : Filled [] []
  | text {texts cells : List String} (t : String) :
      Filled texts cells → Filled (t :: texts) (t :: cells)
  | blank {texts cells : List String} : Filled texts cells → Filled texts ("" :: cells)

theorem Filled.append {texts texts' cells cells' : List String} (h : Filled texts cells)
    (h' : Filled texts' cells') : Filled (texts ++ texts') (cells ++ cells') := by
  induction h with
  | nil => exact h'
  | text t _ ih => exact .text t ih
  | blank _ ih => exact .blank ih

end Comparison

end TypeStub
