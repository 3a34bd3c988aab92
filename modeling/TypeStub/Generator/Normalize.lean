import TypeStub.Source
import TypeStub.Text.Lines
import TypeStub.Text.Space
/-!
# Stubs of another generator, normalised

Pyright puts a banner and the imports in front of a module's documentation, and remarks on return
types behind function heads. The banner and the remarks are removed, and the documentation goes to
the front.
-/

namespace TypeStub.Generator

open TypeStub.Syntax TypeStub.Text

def banner : String := "This type stub file was generated by pyright."

/-- What a statement is at the start of a generated stub. -/
inductive Part
  | banner
  | documentation
  | imports
  | code
  deriving DecidableEq, Repr

def partOf : Stmt → Part
  | .expr _ (.constant _ (.str points _)) =>
    if (ofPoints? points).map strip == some banner.toList then .banner else .documentation
  | .imports .. | .importFrom .. => .imports
  | _ => .code

def withGap (lines : List (List Char)) : List (List Char) :=
  match lines.getLast? with
  | none => lines
  | some line => if line.isEmpty then lines else lines ++ [[]]

/-- The lines of a normalised stub behind the given ones. `front` tells whether documentation
belongs to the front. From the first other statement on, all text is kept; where it starts is
counted in bytes, and as many characters are left out. -/
def partLines (source : Source) (front : Bool) (lines : List (List Char)) :
    List Stmt → Except SpanError (List (List Char))
  | [] => .ok lines
  | stmt :: rest =>
    match partOf stmt, front with
    | .banner, true => partLines source true lines rest
    | .documentation, true => do
      let text ← source.statementText stmt
      partLines source false (text :: [] :: lines) rest
    | .imports, _ => do
      let text ← source.statementText stmt
      partLines source front (lines ++ [text]) rest
    | _, _ => do
      let (start, _) ← source.offsetsFrom stmt.span stmt.decorators
      return withGap lines ++ splitLines (source.text.drop start)

def withoutRemark (line : List Char) : List Char :=
  match cut? "# -> ".toList line with
  | some (before, _) => dropTrailing (· == ' ') before
  | none => line

/-- Why a stub cannot be normalised. -/
inductive NormalizeError
  | read (cause : ReadError)
  | span (cause : SpanError)
  deriving DecidableEq, Repr

def normalize (version : Version) (text : List Char) : Except NormalizeError (List Char) :=
  let source : Source := { text, path := "", version := some version, typeComments := false }
  match source.readModule with
  | .error cause => .error (.read cause)
  | .ok m =>
    match partLines source true [] m.body with
    | .error cause => .error (.span cause)
    | .ok lines =>
      let text := strip (joinWith ['\n'] lines)
      .ok ((splitAt '\n' text).flatMap fun line => withoutRemark line ++ ['\n'])

end TypeStub.Generator
