import TypeStub.Formatter
/-!
# Generation runs

A run cleans the output of each tree of modules, writes the stubs of its modules, copies stubs that
are there already, and formats the result.
-/

namespace TypeStub.Generation

open TypeStub.Files TypeStub.WorkM

def copyTo (input output : Path) : WorkM Unit := do
  alter (·.makeDirs output.parent)
  alter (·.copy input output)

def writeStub (config : ValidConfig) (e : Event) : WorkM Unit := do
  let text ← look (·.readText e.input)
  let stub ← ofStub (Stub.generate config false (.read e.inputText) text)
  alter (·.makeDirs e.output.parent)
  alter (·.writeText e.output stub)

def clean (e : Event) : WorkM Unit := do
  say ("Clean " ++ e.outputText)
  alter (·.remove e.output)

def handle (config : ValidConfig) (e : Event) : WorkM Unit :=
  match e.action with
  | .clean => clean e
  | .copy => do
    say ("Copy " ++ e.outputText)
    copyTo e.input e.output
  | .stub => do
    say ("Stub " ++ e.inputText ++ " -> " ++ e.outputText)
    writeStub config e

def writeStubs (config : ValidConfig) (work : WorkList) : WorkM WorkList :=
  work.forEach (handle config)

def run (config : ValidConfig) (input output : Path) : WorkM Unit := do
  let work ← WorkList.ofPaths input output
  let done ← writeStubs config work
  Formatter.formatOutputs config done

def generate (config : Config) (input output : Path) : WorkM Unit := do
  let store ← files
  let input := store.resolve input
  let output := store.resolve output
  let valid ← ofExcept .validity config.validate
  run valid input output

end TypeStub.Generation
