import TypeStub.Files.Store
/-!
# External programs

Formatters and other generators of stubs are external programs. A program is given by a script that
says what it does: how it ends, what it prints, what it appends to the files it is called with, and
which files it makes.
-/

namespace TypeStub

open TypeStub.Files

/-- A call of a program. -/
structure Invocation where
  args : List String
  workDir : Option Path := none
  searchPath : Option String := none
  deriving DecidableEq, Repr

/-- How a program ended, and what it printed. -/
structure Outcome where
  exitCode : Int
  output : String
  deriving DecidableEq, Repr

/-- What a program does. `files` gives the files that it makes for a subject. -/
structure Script where
  exitCode : Int := 0
  output : String := ""
  append : Option String := none
  files : List (String × List (Path × ByteArray)) := []
  deriving Inhabited

namespace Invocation

def program (i : Invocation) : String :=
  i.args.head?.getD ""

/-- The subject of a call and the directory that the files made for it belong in. Pyright is called
with the name of a module and writes below its working directory; stubgen is called with a
directory to write to and the path of a module. -/
def subject? (i : Invocation) : Option (String × Path) :=
  match i.program, i.args, i.workDir with
  | "pyright", _ :: _ :: name :: _, some dir => some (name, dir.child "typings")
  | "stubgen", _ :: _ :: _ :: dir :: source :: _, _ => some ((Path.read source).name, .read dir)
  | _, _, _ => none

end Invocation

namespace Script

def writeAll (dir : Path) (files : List (Path × ByteArray)) (s : Store) : Except Fault Store :=
  files.foldlM (fun s (path, content) => do
    let target := dir.join path
    let s ← s.makeDirs target.parent
    s.writeBytes target content) s

def appendTo (args : List String) (text : String) (s : Store) : Except Fault Store :=
  args.foldlM (fun s arg =>
    let p := Path.read arg
    if s.isFile p then s.appendBytes p text.toUTF8 else .ok s) s

def run (script : Script) (call : Invocation) (s : Store) : Except Fault (Outcome × Store) := do
  let outcome : Outcome := { exitCode := script.exitCode, output := script.output }
  if script.exitCode != 0 then return (outcome, s)
  let s ← match script.append with
    | some text => appendTo call.args.tail text s
    | none => .ok s
  let s ← match call.subject? with
    | some (subject, dir) => writeAll dir ((script.files.lookup subject).getD []) s
    | none => .ok s
  return (outcome, s)

end Script

abbrev Programs := List (String × List Script)

namespace Programs

def next? (name : String) : Programs → Option (Script × Programs)
  | [] => none
  | (n, scripts) :: rest =>
    if n == name then
      match scripts with
      | [] => none
      | [script] => some (script, (n, [script]) :: rest)
      | script :: more => some (script, (n, more) :: rest)
    else (next? name rest).map fun (script, rest) => (script, (n, scripts) :: rest)

end Programs

end TypeStub
