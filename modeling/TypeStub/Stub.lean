import TypeStub.Path
import TypeStub.Stub.Used
/-!
# Stubs of modules

A module is stubbed twice: the first pass keeps all imports, and the second pass works on the
result of the first, where it can be seen which imports are needed.
-/

namespace TypeStub

open TypeStub.Syntax

namespace Stub

/-- One pass over a source. With `discover`, only the imports are kept that are needed. -/
def pass (config : ValidConfig) (debug : Bool) (source : Source) (used : Option (List String))
    (discover : Bool) : StubM (String × Option (List String)) := do
  let m ← StubM.ofRead source.readModule
  let used ← if discover then source.usedNames used m.body else pure used
  let text ← ({ source, config, debug, used } : Session).output m
  return (text, used)

def sourceOf (config : ValidConfig) (path : Path) (text : List Char) : Source :=
  { text, path := path.text, version := some config.version, typeComments := false }

def importContext (path : Path) : Filter.Context :=
  { parentTags := [.module], tags := [.imports], filePath := path.text }

def generate (config : ValidConfig) (debug : Bool) (path : Path) (text : List Char) :
    StubM String := do
  let (first, _) ← pass config debug (sourceOf config path text) none false
  let keepAll ← Session.isMatch config.keepUnusedImports (importContext path)
  let (second, _) ← pass config debug (sourceOf config path first.toList) none (!keepAll)
  return second

end Stub

end TypeStub
