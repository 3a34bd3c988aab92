import TypeStub.Generation
/-!
# Stubs made by Pyright

Pyright is asked for the stubs of a whole tree of modules at once. They are written to a temporary
directory, normalised and moved to the output.
-/

namespace TypeStub.Generator

open TypeStub.Files TypeStub.WorkM TypeStub.Generation TypeStub.Data

def normalizeFile (config : ValidConfig) (path : Path) : WorkM Unit := do
  let text ← look (·.readText path)
  let text ← ofExcept .normalize (normalize config.version text)
  alter (·.writeText path (String.ofList text))

def moveFile (generated output : Path) : WorkM Unit := do
  alter (·.makeDirs output.parent)
  alter (·.rename generated output)

def moveTree (generated output : Path) : WorkM Unit := do
  alter (·.makeDirs output.parent)
  discard output
  alter (·.rename generated output)

/-- The settings of a Pyright run that finds modules below a directory. -/
def pyrightSettings (base : Path) : String :=
  "\x7b\"extraPaths\": [" ++ Json.writtenString base.text ++ "]\x7d"

def callPyright (dir base : Path) (name : String) (config : ValidConfig) : WorkM Unit := do
  let settings := dir.child "config.json"
  alter (·.writeText settings (pyrightSettings base))
  callChecked
    { args :=
        ["pyright", "--createstub", name, "--pythonversion",
          Text.decimalInt config.version.major ++ "." ++ Text.decimalInt config.version.minor,
          "-p", settings.text]
      workDir := some dir }

def makeWithPyright (config : ValidConfig) (input output : Path) (single : Bool) : WorkM Unit :=
  inTemporary fun dir => do
    callPyright dir input.parent input.stem config
    let generated := (dir.child "typings").child input.stem
    if single then
      let stub := generated.child "__init__.pyi"
      normalizeFile config stub
      moveFile stub output
    else
      foldPaths (fun _ path => do
        if path.suffix == ".pyi" && (← files).isFile path then normalizeFile config path)
        () generated
      moveTree generated output

end TypeStub.Generator
