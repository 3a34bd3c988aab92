/-!
# File trees

A file tree holds files, directories and symbolic links. The names in a directory differ from each
other. Here a place in a tree is a list of names that is followed literally.
-/

namespace TypeStub.Files

/-- A file, a directory or a symbolic link. -/
inductive Entry where
  | file (content : ByteArray) (executable : Bool)
  | dir (entries : List (String × Entry))
  | link (target : String)
  deriving Inhabited

namespace Entry

def emptyDir : Entry := .dir []

def isDir : Entry → Bool
  | .dir _ => true
  | _ => false

def isFile : Entry → Bool
  | .file .. => true
  | _ => false

def isLink : Entry → Bool
  | .link _ => true
  | _ => false

def names : Entry → List String
  | .dir entries => (entries.map (·.1)).mergeSort fun a b => !decide (b < a)
  | _ => []

def child? (name : String) : Entry → Option Entry
  | .dir entries => entries.lookup name
  | _ => none

def find? : List String → Entry → Option Entry
  | [], e => some e
  | name :: rest, e =>
    match e.child? name with
    | some c => c.find? rest
    | none => none

/-- Changes the entry with a name in a list of entries: `f` gets what is there and gives what is
there afterwards. -/
def changeNamed (name : String) (f : Option Entry → Option Entry) :
    List (String × Entry) → List (String × Entry)
  | [] =>
    match f none with
    | some e => [(name, e)]
    | none => []
  | (n, e) :: rest =>
    if n == name then
      match f (some e) with
      | some e' => (n, e') :: rest
      | none => rest
    else (n, e) :: changeNamed name f rest

def change (f : Option Entry → Option Entry) : List String → Entry → Entry
  | [], e => (f (some e)).getD e
  | name :: rest, .dir entries =>
    .dir (changeNamed name (fun found =>
      match rest, found with
      | [], _ => f found
      | _ :: _, some e => some (e.change f rest)
      | _ :: _, none => none) entries)
  | _ :: _, e => e

def put (tree : Entry) (place : List String) (e : Entry) : Entry :=
  tree.change (fun _ => some e) place

def erase (tree : Entry) (place : List String) : Entry :=
  tree.change (fun _ => none) place

mutual

/-- How many directories lie inside each other at most. -/
def depth : Entry → Nat
  | .dir entries => depthAll entries + 1
  | _ => 0

/-- How many directories lie inside each other at most in a list of entries. -/
def depthAll : List (String × Entry) → Nat
  | [] => 0
  | (_, e) :: rest => max e.depth (depthAll rest)

end

end Entry

end TypeStub.Files
