import TypeStub.Files.Digest
import TypeStub.Workspace
/-!
# Hiding programs

Programs are looked for in the directories of a search path. A program is hidden by putting, in
place of a directory that holds it, another one with links to everything else in that directory.
-/

namespace TypeStub.Check

open TypeStub.Files TypeStub.Text TypeStub.WorkM

def cacheDir : Path := .read "dev/.cache"

def sortedNames (names : List String) : List String :=
  names.mergeSort fun a b => !decide (b < a)

/-- A name below a directory of a search path. An empty directory is the working directory. -/
def below (dir name : String) : String :=
  if dir.isEmpty then name
  else if dir.toList.getLast? == some '/' then dir ++ name
  else dir ++ "/" ++ name

def isProgram (store : Store) (path : String) : Bool :=
  store.isFile (.read path) && store.isExecutable (.read path)

def searchDirs (searchPath : String) : List String :=
  (splitAt ':' searchPath.toList).map String.ofList

def find? (store : Store) (name searchPath : String) : Option String :=
  if name.toList.contains '/' then (if isProgram store name then some name else none)
  else if searchPath.isEmpty then none
  else ((searchDirs searchPath).map (below · name)).find? (isProgram store)

def held (store : Store) (dir : String) (programs : List String) : List String :=
  (sortedNames programs).filterMap fun program =>
    match find? store program dir with
    | none => none
    | some found =>
      let path := Path.read found
      if path.parent == .read dir then some path.name else none

def hiddenText (dir : Path) (names : List String) : String :=
  dir.text ++ ", [" ++ join ", " (names.map quote) ++ "]"

/-- The directory that takes the place of another one in which programs are hidden. Its name comes
from the digest of what is hidden. -/
def substituteFor (dir : Path) (names : List String) : Path :=
  let key := (digest (hiddenText dir names).toUTF8.toList).text
  cacheDir.child ("PATH-" ++ String.ofList (key.toList.take 16))

def linkOthers (dir target : Path) (names : List String) : WorkM Unit := do
  let entries ← look (·.list dir)
  entries.forM fun name => do
    let entry := dir.child name
    let store ← files
    if !names.contains name && store.isExecutable entry then
      alter (·.link (target.child name) entry)

def hideIn (dir : String) (programs : List String) : WorkM Path := do
  let store ← files
  let names := held store dir programs
  if names.isEmpty then return .read dir
  let target := store.resolve (substituteFor (.read dir) names)
  if !store.pathExists target then
    alter (·.makeDir target)
    linkOthers (.read dir) target names
  if !(← files).isDir target then throw (.check .cacheBlocked)
  return target

def hide (programs : List String) : WorkM String := do
  let dirs ← (searchDirs (← get).searchPath).mapM fun dir => hideIn dir programs
  let searchPath := join ":" (dirs.map (·.text))
  let store ← files
  if programs.any fun program => (find? store program searchPath).isSome then
    throw (.check .stillFound)
  return searchPath

end TypeStub.Check
