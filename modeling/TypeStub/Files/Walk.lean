import TypeStub.Workspace
/-!
# Walking through file trees

Walks visit paths one after the other. What a visit does to the files shows in the rest of the walk:
a directory is listed when the walk reaches it.
-/

namespace TypeStub.Files

open TypeStub.WorkM

variable {σ : Type}

abbrev Visit (σ : Type) := σ → Path → WorkM σ

/-- How deep a walk goes at most. A visit can make directories that are then visited as well, each
below one that was there before. -/
def walkDepth : WorkM Nat := do
  let depth := (← files).root.depth + 2
  return depth * depth

/-- Visits a directory, the files in it in order, and then what is below each directory in it, in
the order of the system. Symbolic links to directories are not followed, and what is no directory is
passed over. -/
def foldTree (visit : Visit σ) : (fuel : Nat) → σ → Path → WorkM σ
  | 0, s, _ => pure s
  | fuel + 1, s, dir => do
    let w ← get
    match w.store.list dir with
    | .error _ => pure s
    | .ok names =>
      let (dirs, others) := names.partition fun name => w.store.isDir (dir.child name)
      let s ← visit s dir
      let s ← others.foldlM (fun s name => visit s (dir.child name)) s
      (w.order.arrange dir dirs).foldlM (fun s name => do
        if (← files).isLink (dir.child name) then pure s
        else foldTree visit fuel s (dir.child name)) s

def foldPaths (visit : Visit σ) (s : σ) (path : Path) : WorkM σ := do
  if !(← files).pathExists path then throw (.noPath path.text)
  let single := (← files).isFile path
  let s ← if single then visit s path else pure s
  foldTree visit (← walkDepth) s path

def isModulePath (path : Path) : Bool :=
  path.suffix == ".py" || path.suffix == ".pyi" || path.name == "py.typed"

def isModuleRoot (store : Store) (path : Path) : Bool :=
  (store.isDir path && store.pathExists (path.child "__init__.py"))
    || (store.isFile path && isModulePath path)

def foldRoots (visit : Visit σ) : (fuel : Nat) → σ → Path → WorkM σ
  | fuel, s, path => do
    let store ← files
    if isModuleRoot store path then visit s path
    else if store.isDir path then
      match fuel with
      | 0 => pure s
      | fuel + 1 => do
        let names ← look (·.list path)
        names.foldlM (fun s name => foldRoots visit fuel s (path.child name)) s
    else pure s

def collect : Visit (List Path) :=
  fun paths path => pure (paths ++ [path])

def paths (path : Path) : WorkM (List Path) :=
  foldPaths collect [] path

def moduleRoots (path : Path) : WorkM (List Path) := do
  foldRoots collect (← walkDepth) [] path

end TypeStub.Files
