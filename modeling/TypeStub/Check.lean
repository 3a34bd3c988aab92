import TypeStub.Check.Search
import TypeStub.CommandLine.Options
import TypeStub.Files.Walk
import TypeStub.Text.ShellWords
/-!
# Checking the project

A check formats and lints the modules of the project, brings its documents up to date, runs the
command line with each set of optional parts installed, and runs the tests.
-/

namespace TypeStub.Check

open TypeStub.Files TypeStub.Text TypeStub.WorkM TypeStub.CommandLine

/-! ## Commands -/

/-- A command of a check. Its output is seen only if it is `hidden` from the terminal; `expected`
is a text that a command which has to fail prints. -/
structure Step where
  args : List String
  hidden : Bool := true
  expected : Option String := none
  searchPath : Option String := none
  deriving DecidableEq, Repr

def giveUp (what output : String) : WorkM Unit := do
  say ("! CMD " ++ what)
  say output
  throw (.exit 1)

def runStep (s : Step) : WorkM Unit := do
  say ("* " ++ joinWords s.args)
  let outcome ← call { args := s.args, searchPath := s.searchPath }
  match s.expected with
  | none =>
    if outcome.exitCode != 0 then
      if s.hidden then say outcome.output
      throw (.exit outcome.exitCode)
  | some text =>
    if !s.hidden then throw (.check .outputHidden)
    if outcome.exitCode == 0 then giveUp "did not fail" outcome.output
    else if !occurs text.toList outcome.output.toList then
      giveUp ("output did not contain " ++ text) outcome.output

/-! ## Modules -/

def modulesFrom (store : Store) : (fuel : Nat) → Path → Except Fault (List Path)
  | fuel, path =>
    if store.isFile path && path.suffix == ".py" then .ok [path]
    else if store.isDir path then
      if store.pathExists (path.child "__init__.py") then .ok [path]
      else
        match fuel with
        | 0 => .ok []
        | fuel + 1 => do
          let names ← store.list path
          let found ← names.mapM fun name => modulesFrom store fuel (path.child name)
          return found.flatten
    else .ok []

def modules (path : Path) : WorkM (List Path) := do
  let fuel ← walkDepth
  look fun store => modulesFrom store fuel path

def tree (path : Path) : WorkM (List Path) := do
  foldTree collect (← walkDepth) [] path

def checkedModules : WorkM (List Path) := do
  let found ← ["src", "tests", "dev"].mapM fun root => modules (.read root)
  return found.flatten.filter fun path =>
    !path.parts.contains "data_for_test" && !path.parts.contains ".cache"

/-! ## Checks -/

def checkStyle (verbose : Bool) : WorkM Unit := do
  let paths ← checkedModules
  let args := (if verbose then ["--verbose"] else []) ++ paths.map (·.text)
  say "[Check/Fix formatting style]"
  runStep { args := "isort" :: args }
  runStep { args := "black" :: args }
  say ""
  say "[Check types and lints]"
  runStep { args := "pyright" :: args }
  runStep { args := "pylint" :: args }
  say ""

def checkDocs : WorkM Unit := do
  say "[Check README]"
  runStep { args := ["dubstub", "config", "--gen-docs", "README.md"] }
  say ""

/-- Installs the project with optional parts; gives the directory of its programs. -/
def install (version : String) (extras : List String) : WorkM Path := do
  let name := if extras.isEmpty then "none" else join "-" (sortedNames extras)
  let parts := if extras.isEmpty then "" else "[" ++ join "," extras ++ "]"
  let env := cacheDir.join (.read ("venv-" ++ version ++ "-" ++ name))
  let bin := env.child "bin"
  runStep { args := ["uv", "venv", "--python", version, env.text] }
  runStep
    { args :=
        ["uv", "pip", "install", "." ++ parts, "--refresh-package", "dubstub", "--python",
          (bin.child "python").text] }
  return bin

/-- A run of the command line in a check: its arguments, and what it prints if it has to fail. -/
abbrev Trial := List String × Option String

/-- Runs the command line with optional parts installed, while the programs of other parts are
hidden. -/
def tryWith (extras hidden : List String) (trials : List Trial) : WorkM Unit := do
  say ("[Test CLI with extras [" ++ join ", " (extras.map quote) ++ "]]")
  let bin ← install "3.10" extras
  let others ← hide (sortedNames ("dubstub" :: hidden).eraseDups)
  let searchPath := bin.text ++ ":" ++ others
  let program := bin.child "dubstub"
  match find? (← files) "dubstub" searchPath with
  | none => throw (.check .wrongProgram)
  | some found => if Path.read found != program then throw (.check .wrongProgram)
  trials.forM fun (args, expected) =>
    runStep { args := "dubstub" :: args, expected, searchPath := some searchPath }
  say ""

def formatterMissing : Option String := some "can be installed with `def_fmt` extra"

def generatorMissing : Option String := some "can be installed with `eval` extra"

/-- Runs the command line with each set of optional parts installed. -/
def checkCommands : WorkM Unit := do
  let input := cacheDir.child "input"
  let output := cacheDir.child "output"
  alter (·.ensureDir input)
  alter (·.ensureDir output)
  alter (·.touch (input.child "file.py"))
  let gen := ["gen", "--input", input.text, "--output", output.text]
  let eval := ["eval", "--input", input.text, "--output", output.text]
  let diff := ["diff", "--eval", output.text]
  let format := ["--format=True"]
  tryWith [] ["pyright", "black", "isort", "stubgen"]
    [(["--help"], none), (["gen", "--help"], none), (["eval", "--help"], none),
      (["diff", "--help"], none), (["config", "--help"], none), (["config"], none), (gen, none),
      (gen ++ format, formatterMissing), (eval ++ format, formatterMissing),
      (eval, generatorMissing), (diff, some "The `eval` extra seems to not be installed")]
  tryWith ["def_fmt"] ["pyright", "stubgen"]
    [(gen ++ format, none), (eval ++ format, generatorMissing)]
  tryWith ["eval"] ["black", "isort"]
    [(eval, none), (eval ++ format, formatterMissing), (diff, none)]
  tryWith ["eval", "def_fmt"] [] [(eval ++ format, none), (diff, none)]

def given? (text : Option String) : Option String :=
  text.filter fun t => !t.isEmpty

def checkTests (version args : Option String) : WorkM Unit := do
  let versions := match given? version with
    | some v => [v]
    | none => ["3.10", "3.11", "3.12", "3.13"]
  let words ← match given? args with
    | none => pure []
    | some line =>
      match splitWords line with
      | some words => pure words
      | none => throw (.check .malformedWords)
  versions.forM fun v => do
    say ("[Test with python " ++ v ++ "]")
    let bin ← install v ["dev"]
    runStep
      { args := [(bin.child "pytest").text, "--color=auto", "-vv", "tests"] ++ words
        hidden := (given? version).isNone }
    say ""

/-! ## The command line of checks -/

def options : Options :=
  [{ name := "--no-test", kind := .flag }, { name := "--no-style", kind := .flag },
    { name := "--no-doc", kind := .flag }, { name := "--no-cli", kind := .flag },
    { name := "--py-version", kind := .value fun _ => true },
    { name := "--test-args", kind := .value fun _ => true },
    { name := "--tool-verbose", kind := .flag }]

def run (line : List String) : WorkM Unit := do
  let given ← ofExcept .exit (readOptions options line)
  alter (·.makeDirs cacheDir)
  if !given.has "--no-style" then checkStyle (given.has "--tool-verbose")
  if !given.has "--no-doc" then checkDocs
  if !given.has "--no-cli" then checkCommands
  if !given.has "--no-test" then checkTests (given.value? "--py-version") (given.value? "--test-args")

end TypeStub.Check
