import TypeStub.Regex.Matcher
import TypeStub.Regex.Reader
/-!
# Reading and matching regular expressions

`Regex.read` reads a pattern and `Regex.fullMatch` decides whether it matches a text from end to
end.
-/

namespace TypeStub.Regex

def read (pattern : List Nat) : Except RegexError Regex := do
  let start : ReadState :=
    { pieces := [], flags := [], opened := 1, names := [], closed := [], behindFrom := none,
      conditions := [] }
  let whole : Read (List (List Part)) := do
    let ps := pieces pattern
    goTo ps
    branches true (5 * ps.length + 5) false true
  let (all, s) ← whole.run start
  if s.flags.contains .ascii && s.flags.contains .unicode then throw .alphabets
  if !s.pieces.isEmpty then throw .malformed
  if s.conditions.any (· ≥ s.opened) then throw .malformed
  let parts := match all with
    | [only] => only
    | _ => [.either all]
  if soundAll (s.flags.contains .template) parts then
    return { flags := s.flags, parts }
  else throw .malformed

def fullMatch (r : Regex) (text : List Nat) : Bool :=
  let atEnd : Rest := fun s => if s.place.ahead.isEmpty then some s else none
  let start : Progress := { place := { behind := [], ahead := text }, captures := [] }
  (searchAll r.flags r.parts atEnd start).isSome

def matchesAny (pattern : List Nat) (texts : List (List Nat)) : Except RegexError Bool :=
  match texts with
  | [] => .ok false
  | _ => do
    let r ← read pattern
    return texts.any r.fullMatch

end TypeStub.Regex
