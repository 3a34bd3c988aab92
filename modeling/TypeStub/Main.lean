import TypeStub.CommandLine
/-!
# The program

The command line works on the files below the working directory: they are read, the command is run
on them, and what it changed is written back. No external programs are at hand.
-/

namespace TypeStub.Main

open TypeStub.Files TypeStub.Comparison

/-- Reads an entry of a directory with everything below it. What cannot be read counts as a link
that leads nowhere. -/
partial def readEntry (e : IO.FS.DirEntry) : IO (String × Entry) := do
  try
    if ← e.path.isDir then
      let entries ← (← e.path.readDir).toList.mapM readEntry
      return (e.fileName, .dir entries)
    else
      let content ← IO.FS.readBinFile e.path
      return (e.fileName, .file content false)
  catch _ => return (e.fileName, .link "")

def removeAt (path : String) : Entry → IO Unit
  | .dir _ => IO.FS.removeDirAll path
  | _ => IO.FS.removeFile path

/-- Writes an entry in place of another one at a path; what did not change is left alone. -/
partial def writeBack (path : String) (old : Option Entry) (new : Entry) : IO Unit := do
  match old, new with
  | some (.dir before), .dir after =>
    for (name, e) in before do
      if (after.lookup name).isNone then removeAt (path ++ "/" ++ name) e
    for (name, e) in after do
      writeBack (path ++ "/" ++ name) (before.lookup name) e
  | some (.file before _), .file after _ =>
    if before != after then IO.FS.writeBinFile path after
  | some (.link _), .link _ => pure ()
  | some e, new =>
    removeAt path e
    writeBack path none new
  | none, .dir after =>
    IO.FS.createDirAll path
    for (name, e) in after do
      writeBack (path ++ "/" ++ name) none e
  | none, .file content _ => IO.FS.writeBinFile path content
  | none, .link _ => pure ()

/-! ## Drawing tables

A table is drawn with its columns side by side, without colours. -/

def padded (width : Int) (text : String) : String :=
  text ++ String.ofList (List.replicate (width.toNat - text.length) ' ')

def rowLine (widths : List Int) : Row → String
  | .cells left right => padded (widths.headD 0) left.text ++ " | " ++ right.text
  | .line => String.ofList (List.replicate ((widths.foldl (· + ·) 3).toNat) '-')

def tableLines (t : Table) : List String :=
  let widths := t.columns.map (·.2)
  let headers := t.columns.map fun (header, _) => Cell.mk header none
  let head := match headers with
    | left :: right :: _ => [Row.cells left right, .line]
    | _ => []
  t.title :: (head ++ t.rows).map (rowLine widths)

def print (w : Workspace) : IO Unit := do
  for t in w.tables do
    for line in tableLines t do
      IO.println line
  for line in w.log do
    IO.println line

def exitCode : Except Failure Unit → IO UInt32
  | .ok _ => return 0
  | .error (.exit code) => return (code % 256).toNat.toUInt32
  | .error failure => do
    IO.eprintln ("error: " ++ failure.message)
    return 1

end TypeStub.Main

open TypeStub TypeStub.Files in
/-- Runs a command on the files below the working directory. -/
def main (args : List String) : IO UInt32 := do
  let dir ← IO.currentDir
  let entries ← (← dir.readDir).toList.mapM Main.readEntry
  let names := (Path.read dir.toString).names
  let root := names.foldr (fun name below => .dir [(name, below)]) (.dir entries)
  let start : Workspace :=
    { store := { root, cwd := names }, scratch := .absolute ["tmp", "scratch"]
      interpreter := "python3" }
  let (result, w) := (CommandLine.run args).run.run start
  Main.print w
  match w.store.root.find? names with
  | some changed => Main.writeBack "." (some (.dir entries)) changed
  | none => Main.writeBack "." (some (.dir entries)) .emptyDir
  Main.exitCode result
