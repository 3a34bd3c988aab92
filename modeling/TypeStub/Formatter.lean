import TypeStub.Generation.Event
import TypeStub.Text.ShellWords
/-!
# Formatting generated stubs

After a run, the formatter commands of the configuration are called for the stubs that the format
setting selects. The first command that fails ends the run.
-/

namespace TypeStub.Formatter

open TypeStub.Files TypeStub.WorkM TypeStub.Generation

def stubContext (e : Event) : Filter.Context :=
  { parentTags := [], tags := [.module], filePath := e.outputText }

def isSelected (store : Store) (format : Filter) (e : Event) : Except Regex.RegexError Bool :=
  if e.output.suffix == ".pyi" && store.isFile e.output then format.isMatch (stubContext e)
  else .ok false

def select (store : Store) (format : Filter) (paths : List Path) (e : Event) :
    Except Regex.RegexError (List Path) := do
  if paths.contains e.output then return paths
  if ← isSelected store format e then return paths ++ [e.output] else return paths

def selected (store : Store) (format : Filter) (events : List Event) :
    Except Regex.RegexError (List Path) :=
  events.foldlM (select store format) []

def entryJobs (setup : Setup) (paths : List Path) : CommandEntry → Except Failure (List FormatterCmd)
  | .other _ => .error .notCommand
  | .command cmd =>
    match jobs setup cmd paths with
    | .ok all => .ok all
    | .error cause => .error (.job cause)

def runJob (job : FormatterCmd) : WorkM Unit := do
  let outcome ← call { args := job.cmdline }
  if outcome.exitCode != 0 then
    say (job.name ++ " command failed:")
    say (Text.joinWords job.cmdline)
    say "- output ---"
    say outcome.output
    say "------------"
    throw .formatterFailed

def formatOutputs (config : ValidConfig) (work : WorkList) : WorkM Unit := do
  let (events, _) ← work.events
  let paths ← ofExcept .regex (selected (← files) config.format events)
  if paths.isEmpty then return
  say ("Run formatter commands on " ++ Text.decimal paths.length ++ " files")
  let setup : Setup :=
    { major := config.version.major, minor := config.version.minor,
      interpreter := (← get).interpreter }
  let all ← ofExcept id (config.formatterCmds.mapM (entryJobs setup paths))
  all.flatten.forM runJob

end TypeStub.Formatter
