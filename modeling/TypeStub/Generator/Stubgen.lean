import TypeStub.Generator.Pyright
/-!
# Stubs made by stubgen

Stubgen writes the stub of a module below its output directory, at a place that depends on the
packages it finds the module in.
-/

namespace TypeStub.Generator

open TypeStub.Files TypeStub.WorkM TypeStub.Generation

/-- The places where a stub may be found: below all, some or none of the directories that the
module lies in, the root apart. The longest comes first. -/
def candidates (name : Path) : (dirs : List String) → List Path
  | [] => []
  | _ :: rest => ({ root := "", names := rest } : Path).join name :: candidates name rest

def findGenerated (input : Path) (name : String) (dir : Path) : WorkM Path := do
  let store ← files
  match ((candidates (.read name) input.parent.parts).map dir.join).find? store.pathExists with
  | some path => return path
  | none => throw .noGenerated

def stubName (input : Path) (single : Bool) : String :=
  if single && input.suffix == ".py" then input.stem ++ ".pyi" else input.name

def makeWithStubgen (input output : Path) (single : Bool) : WorkM Unit :=
  inTemporary fun dir => do
    let target := dir.child "out"
    alter (·.makeDir target)
    callChecked
      { args := ["stubgen", "--verbose", "-o", target.text, input.text], workDir := some dir }
    let generated ← findGenerated input (stubName input single) target
    if single then moveFile generated output else moveTree generated output

end TypeStub.Generator
