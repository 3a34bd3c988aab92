import TypeStub.Config.Basic
import TypeStub.Path
import TypeStub.Text.Replace
/-!
# Formatter jobs

A formatter command is a template for command lines. Placeholders in it stand for the version of
the language, for the interpreter and for the files to format: either one file per command line, or
all files in one.
-/

namespace TypeStub

open TypeStub.Text

namespace Formatter

def fileMark : String := "$\x7bdubstub_file_arg\x7d"

def filesMark : String := "$\x7bdubstub_file_args\x7d"

/-- What the placeholders other than those for files stand for. -/
structure Setup where
  major : Int
  minor : Int
  interpreter : String
  deriving DecidableEq, Repr

def Setup.changes (s : Setup) : List (String × String) :=
  [("$\x7bdubstub_py_major\x7d", decimalInt s.major),
    ("$\x7bdubstub_py_minor\x7d", decimalInt s.minor),
    ("$\x7bdubstub_py_exe\x7d", s.interpreter)]

def uses (mark : String) (cmdline : List String) : Bool :=
  cmdline.any fun arg => occurs mark.toList arg.toList

/-- Why a command gives no jobs: it uses both or neither of the placeholders for files. -/
inductive JobError
  | placeholders
  deriving DecidableEq, Repr

def JobError.message : JobError → String
  | .placeholders =>
    "exactly one of `" ++ fileMark ++ "` or `" ++ filesMark ++ "` needs to be used in the cmdline"

/-- The arguments that one argument of a template for all files becomes. -/
def spread (s : Setup) (paths : List Path) (arg : String) : List String :=
  let arg := replaceEach s.changes arg
  if occurs filesMark.toList arg.toList then
    paths.map fun p => replaceEach [(filesMark, p.text)] arg
  else [arg]

def jobs (s : Setup) (command : FormatterCmd) (paths : List Path) :
    Except JobError (List FormatterCmd) :=
  let paths := Path.sorted paths
  let one := uses fileMark command.cmdline
  let all := uses filesMark command.cmdline
  if one == all then .error .placeholders
  else if one then
    .ok (paths.map fun p =>
      { command with
        cmdline := command.cmdline.map fun arg =>
          replaceEach [(fileMark, p.text)] (replaceEach s.changes arg) })
  else .ok [{ command with cmdline := command.cmdline.flatMap (spread s paths) }]

end Formatter

end TypeStub
