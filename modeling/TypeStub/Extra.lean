/-!
# Optional parts of an installation

Some commands need modules or programs that belong to an optional part of the installation. If one
of them is missing, the user is told which part to install.
-/

namespace TypeStub

/-- An optional part and the modules and programs that belong to it. -/
structure Extra where
  name : String
  modules : List String := []
  executables : List String := []
  deriving DecidableEq, Repr

/-- Something that was not found. Its name may be unknown. -/
inductive Missing
  | module (name : Option String)
  | file (name : Option String)
  deriving DecidableEq, Repr

/-- What the user is told if something is missing that belongs to an optional part. -/
def Extra.advice? (e : Extra) : Missing → Option String
  | .module (some name) =>
    if e.modules.contains name then
      some ("The `" ++ e.name ++ "` extra seems to not be installed (module `" ++ name
        ++ "` not found)")
    else none
  | .file (some name) =>
    if e.executables.contains name then
      some ("The executable `" ++ name ++ "` was not found (can be installed with `" ++ e.name
        ++ "` extra)")
    else none
  | .module none | .file none => none

def Extra.defaultFormatters : Extra :=
  { name := "def_fmt", executables := ["black", "isort"] }

def Extra.evaluation : Extra :=
  { name := "eval", modules := ["rich"], executables := ["pyright", "stubgen"] }

end TypeStub
