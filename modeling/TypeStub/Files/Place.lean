import TypeStub.Files.Tree
import TypeStub.Path
/-!
# From paths to places

A path leads to a place in a file tree: names are followed from the root or from the working
directory, `..` leads back, and symbolic links lead to where they point.
-/

namespace TypeStub.Files

/-- Why an operation on files fails. -/
inductive Fault where
  /-- Nothing is there; the text of the path that was asked for. -/
  | notFound (name : String)
  | notDirectory
  | isDirectory
  | alreadyExists
  /-- A directory has to be empty and is not. -/
  | notEmpty
  /-- A file does not hold text. -/
  | notText
  /-- A file would be copied onto itself. -/
  | sameFile
  | tooManyLinks
  /-- A directory that is to be removed is a symbolic link. -/
  | linkedTree
  deriving DecidableEq, Repr

/-- A file tree and the place of the working directory in it. -/
structure Store where
  root : Entry
  cwd : List String

namespace Store

def origin (s : Store) (p : Path) : List String × List String :=
  (if p.isAbsolute then [] else s.cwd, p.names)

/-- Follows names from a place. `follow` continues behind a symbolic link, and `last` tells whether
a link at the end is followed. A missing name is an error unless it is the last one. -/
def step (s : Store) (last : Bool) (missing : Fault)
    (follow : List String → List String → Except Fault (List String)) (here : List String) :
    List String → Except Fault (List String)
  | [] => .ok here
  | name :: rest =>
    match s.root.find? here with
    | some (.dir entries) =>
      if name == ".." then step s last missing follow here.dropLast rest
      else
        match entries.lookup name with
        | some (.link target) =>
          if rest.isEmpty && !last then .ok (here ++ [name])
          else
            let p := Path.read target
            follow (if p.isAbsolute then [] else here) (p.names ++ rest)
        | some _ => step s last missing follow (here ++ [name]) rest
        | none => if rest.isEmpty then .ok (here ++ [name]) else .error missing
    | some _ => .error .notDirectory
    | none => .error missing

/-- Follows names from a place through at most `links` symbolic links. -/
def walk (s : Store) (last : Bool) (missing : Fault) :
    (links : Nat) → List String → List String → Except Fault (List String)
  | 0 => s.step last missing fun _ _ => .error .tooManyLinks
  | links + 1 => s.step last missing (s.walk last missing links)

def maxLinks : Nat := 40

/-- The place that a path leads to. It lies in an existing directory, but need not exist itself. -/
def place (s : Store) (p : Path) (last : Bool) : Except Fault (List String) :=
  let (here, names) := s.origin p
  s.walk last (.notFound p.text) maxLinks here names

def locate (s : Store) (p : Path) (last : Bool) : Except Fault (List String × Entry) := do
  let place ← s.place p last
  match s.root.find? place with
  | some e => return (place, e)
  | none => throw (.notFound p.text)

def entry? (s : Store) (p : Path) : Option Entry :=
  ((s.locate p true).toOption).map (·.2)

def pathExists (s : Store) (p : Path) : Bool :=
  (s.entry? p).isSome

def isFile (s : Store) (p : Path) : Bool :=
  (s.entry? p).any Entry.isFile

def isDir (s : Store) (p : Path) : Bool :=
  (s.entry? p).any Entry.isDir

def isLink (s : Store) (p : Path) : Bool :=
  (((s.locate p false).toOption).map (·.2)).any Entry.isLink

def isExecutable (s : Store) (p : Path) : Bool :=
  (s.entry? p).any fun
    | .file _ executable => executable
    | .dir _ => true
    | .link _ => false

/-! ## Resolved paths -/

def resolveStep (s : Store) (follow : List String → List String → List String)
    (here : List String) : List String → List String
  | [] => here
  | name :: rest =>
    if name == ".." then resolveStep s follow here.dropLast rest
    else
      match s.root.find? (here ++ [name]) with
      | some (.link target) =>
        let p := Path.read target
        follow (if p.isAbsolute then [] else here) (p.names ++ rest)
      | _ => resolveStep s follow (here ++ [name]) rest

/-- Resolves names from a place through at most `links` symbolic links. -/
def resolveNames (s : Store) : (links : Nat) → List String → List String → List String
  | 0 => s.resolveStep fun here names => here ++ names
  | links + 1 => s.resolveStep (s.resolveNames links)

/-- The absolute path, without `..` and symbolic links, that a path stands for. -/
def resolve (s : Store) (p : Path) : Path :=
  let (here, names) := s.origin p
  .absolute (s.resolveNames maxLinks here names)

end Store

end TypeStub.Files
