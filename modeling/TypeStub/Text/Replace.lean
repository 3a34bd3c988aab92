import TypeStub.Text.Split
/-!
# Replacing marks in text

A mark is replaced wherever it occurs; occurrences are found from the left and do not overlap.
-/

namespace TypeStub.Text

def occurs (mark text : List Char) : Bool :=
  (cut? mark text).isSome

/-- Replaces a mark in a text whose first `skip` characters belong to an occurrence before it. -/
def replaceFrom (mark new : List Char) : (skip : Nat) → List Char → List Char
  | _, [] => []
  | skip + 1, _ :: rest => replaceFrom mark new skip rest
  | 0, c :: rest =>
    if startsWith mark (c :: rest) then new ++ replaceFrom mark new (mark.length - 1) rest
    else c :: replaceFrom mark new 0 rest

/-- The text with `new` in place of each occurrence of a mark that is not empty. -/
def replaceAll (mark new text : List Char) : List Char :=
  replaceFrom mark new 0 text

def replaceEach (changes : List (String × String)) (text : String) : String :=
  String.ofList (changes.foldl (fun t (mark, new) => replaceAll mark.toList new.toList t)
    text.toList)

end TypeStub.Text
