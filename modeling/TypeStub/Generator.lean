import TypeStub.Generator.Stubgen
/-!
# Generators to compare

The stubs of an input can be made by several generators, each of which writes to a directory of its
own.
-/

namespace TypeStub

open TypeStub.Files TypeStub.WorkM TypeStub.Generation

inductive Generator where
  /-- This library. -/
  | own
  | pyright
  | mypy
  deriving DecidableEq, Repr

namespace Generator

def all : List Generator := [.own, .pyright, .mypy]

def name : Generator → String
  | .own => "dubstub"
  | .pyright => "pyright"
  | .mypy => "mypy"

def named? (name : String) : Option Generator :=
  all.find? (·.name == name)

/-- Runs another generator for each root of a tree of modules. Stubs that are in the input already
are copied. -/
def runOther (make : Path → Path → Bool → WorkM Unit) (config : ValidConfig)
    (input output : Path) : WorkM Unit := do
  let work ← WorkList.ofPaths input output
  let done ← work.forEach fun e =>
    match e.action with
    | .clean => do
      clean e
      let store ← files
      if store.isDir e.input || e.input.suffix == ".py" || e.input.suffix == ".pyi" then
        say ("Stub " ++ e.inputText ++ " -> " ++ e.outputText)
        make e.input e.output (store.isFile e.input)
    | .copy => do
      say ("Copy " ++ e.outputText)
      copyTo e.input e.output
    | .stub => pure ()
  Formatter.formatOutputs config done

def run (g : Generator) (config : ValidConfig) (input output : Path) : WorkM Unit :=
  match g with
  | .own => Generation.run config input output
  | .pyright => runOther (makeWithPyright config) config input output
  | .mypy => runOther makeWithStubgen config input output

/-- The generators that names stand for, each once; `all` stands for all of them. -/
def select (names : List String) : Except Failure (List Generator) :=
  names.foldlM (fun chosen name =>
    if name == "all" then .ok (chosen ++ all.filter fun g => !chosen.contains g)
    else
      match named? name with
      | some g => .ok (if chosen.contains g then chosen else chosen ++ [g])
      | none => .error (.unknownGenerator name)) []

/-- Runs generators side by side. Each writes to a directory with its name below the output, and
there to that of the group if one is given. -/
def evaluate (config : Config) (input output : Path) (group : Option String)
    (names : List String) : WorkM Unit := do
  let store ← files
  let input := store.resolve input
  let output := store.resolve output
  let valid ← ofExcept .validity config.validate
  let chosen ← ofExcept id (select names)
  chosen.forM fun g => do
    say ("Generate typestubs with " ++ g.name)
    let target := output.child g.name
    let target := match group with
      | some name => if name.isEmpty then target else target.join (.read name)
      | none => target
    g.run valid input target
    say ""

end Generator

end TypeStub
