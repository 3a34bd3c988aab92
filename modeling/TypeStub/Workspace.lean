import TypeStub.Comparison.Table
import TypeStub.Docs
import TypeStub.Extra
import TypeStub.Formatter.Job
import TypeStub.Generator.Normalize
import TypeStub.Program
import TypeStub.Stub
/-!
# Workspaces

A command works on files, runs programs, prints lines and shows tables. The workspace holds the
files and the programs, and records what was printed, run and shown. It keeps what a command did
before it failed.
-/

namespace TypeStub

open TypeStub.Files

/-- Why a check of a project cannot be made. -/
inductive CheckFault where
  /-- The output of a command is needed and not seen. -/
  | outputHidden
  /-- A directory of links is no directory. -/
  | cacheBlocked
  /-- A program that was to be hidden is still found. -/
  | stillFound
  /-- The program under test is not the installed one. -/
  | wrongProgram
  /-- Words cannot be split. -/
  | malformedWords
  deriving DecidableEq, Repr

/-- Why a command fails. -/
inductive Failure where
  | file (cause : Fault)
  | stub (cause : StubError)
  | normalize (cause : Generator.NormalizeError)
  | config (cause : ConfigError)
  | validity (cause : ValidityError)
  | settings (cause : Config.ShowError)
  | docs (cause : Docs.DocsError)
  | job (cause : Formatter.JobError)
  | regex (cause : Regex.RegexError)
  | check (cause : CheckFault)
  /-- There is no input. -/
  | noInput
  /-- A path that is to be walked through does not exist. -/
  | noPath (path : String)
  /-- A path does not lie where it should. -/
  | outside
  | formatterFailed
  /-- An item of the list of formatter commands is none. -/
  | notCommand
  /-- A program failed that has to succeed. -/
  | programFailed
  /-- A generator did not write what it should. -/
  | noGenerated
  | unknownGenerator (name : String)
  /-- The command ends with an exit code. -/
  | exit (code : Int)
  deriving DecidableEq, Repr

def Failure.message : Failure → String
  | .stub cause => cause.message
  | .normalize (.span cause) => cause.message
  | .config cause => cause.message?.getD ""
  | .validity cause => cause.message
  | .job cause => cause.message
  | .noPath path => "Path does not exist: >" ++ path ++ "<"
  | .formatterFailed => "formatter failed"
  | .noGenerated => "could not find expected files in mypy output"
  | .unknownGenerator name => Text.quote name
  | .file (.notFound name) => name
  | _ => ""

/-- The order in which a walk comes upon the directories in a directory, whose names are given in
order. It is up to the system, and no directory is left out or taken twice. -/
structure DirOrder where
  arrange : Path → List String → List String
  perm : ∀ dir names, (arrange dir names).Perm names

def DirOrder.byName : DirOrder := ⟨fun _ names => names, fun _ _ => .refl _⟩

/-- What commands work on. Temporary directories are made at `scratch`; `searchPath` tells where
programs are looked for. -/
structure Workspace where
  store : Store
  scratch : Path
  interpreter : String
  searchPath : String := ""
  render : Docs.Renderer := id
  order : DirOrder := .byName
  programs : Programs := []
  log : List String := []
  calls : List Invocation := []
  tables : List Comparison.Table := []

abbrev WorkM := ExceptT Failure (StateM Workspace)

namespace WorkM

def ofExcept {ε α : Type} (cause : ε → Failure) : Except ε α → WorkM α
  | .ok a => pure a
  | .error e => throw (cause e)

def files : WorkM Store := do
  return (← get).store

def look {α : Type} (f : Store → Except Fault α) : WorkM α := do
  ofExcept .file (f (← files))

def alter (f : Store → Except Fault Store) : WorkM Unit := do
  let store ← look f
  modify fun w => { w with store }

def say (line : String) : WorkM Unit :=
  modify fun w => { w with log := w.log ++ [line] }

def ofStub {α : Type} (m : StubM α) : WorkM α := do
  let (result, lines) := m.run.run []
  lines.forM say
  ofExcept .stub result

def call (i : Invocation) : WorkM Outcome := do
  modify fun w => { w with calls := w.calls ++ [i] }
  match (← get).programs.next? i.program with
  | none => throw (.file (.notFound i.program))
  | some (script, programs) =>
    modify fun w => { w with programs }
    let (outcome, store) ← look (script.run i)
    modify fun w => { w with store }
    return outcome

def callChecked (i : Invocation) : WorkM Unit := do
  let outcome ← call i
  if outcome.exitCode != 0 then throw .programFailed

def missing? : Failure → Option Missing
  | .file (.notFound name) => some (.file (some name))
  | _ => none

/-- Tells the user which part of the installation is missing if a step fails because of that. -/
def withExtra {α : Type} (extra : Extra) (m : WorkM α) : WorkM α :=
  tryCatch m fun failure =>
    match (missing? failure).bind extra.advice? with
    | some line => do
      say line
      throw (.exit 1)
    | none => throw failure

def discard (dir : Path) : WorkM Unit :=
  modify fun w => { w with store := (w.store.removeTree dir).toOption.getD w.store }

def inTemporary {α : Type} (m : Path → WorkM α) : WorkM α := do
  let dir := (← get).scratch
  alter (·.makeDirs dir)
  let result ← tryCatch (Except.ok <$> m dir) fun failure => pure (.error failure)
  discard dir
  ofExcept id result

end WorkM

end TypeStub
