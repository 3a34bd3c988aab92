import TypeStub.Files.Place
import TypeStub.Text.Lines
/-!
# Operations on file trees

Reading, writing, copying, moving and removing what paths lead to. An operation that fails leaves
the tree as it was.
-/

namespace TypeStub.Files

namespace Store

def putAt (s : Store) (place : List String) (e : Entry) : Store :=
  { s with root := s.root.put place e }

def eraseAt (s : Store) (place : List String) : Store :=
  { s with root := s.root.erase place }

/-! ## Reading -/

def readBytes (s : Store) (p : Path) : Except Fault ByteArray := do
  match ← s.locate p true with
  | (_, .file content _) => return content
  | _ => throw .isDirectory

/-- The text of a file with every line end written as a line feed. -/
def readText (s : Store) (p : Path) : Except Fault (List Char) := do
  match String.fromUTF8? (← s.readBytes p) with
  | some text => return Text.unifyLineEnds text.toList
  | none => throw .notText

def list (s : Store) (p : Path) : Except Fault (List String) := do
  match ← s.locate p true with
  | (_, .dir entries) => return (Entry.dir entries).names
  | _ => throw .notDirectory

/-! ## Files -/

def writeBytes (s : Store) (p : Path) (content : ByteArray) : Except Fault Store := do
  let place ← s.place p true
  match s.root.find? place with
  | some (.file _ executable) => return s.putAt place (.file content executable)
  | some _ => throw .isDirectory
  | none => return s.putAt place (.file content false)

def writeText (s : Store) (p : Path) (text : String) : Except Fault Store :=
  s.writeBytes p text.toUTF8

def appendBytes (s : Store) (p : Path) (more : ByteArray) : Except Fault Store := do
  let content ← s.readBytes p
  s.writeBytes p (content ++ more)

def touch (s : Store) (p : Path) : Except Fault Store := do
  let place ← s.place p true
  match s.root.find? place with
  | some _ => return s
  | none => return s.putAt place (.file .empty false)

def removeFile (s : Store) (p : Path) : Except Fault Store := do
  match ← s.locate p false with
  | (_, .dir _) => throw .isDirectory
  | (place, _) => return s.eraseAt place

def link (s : Store) (p : Path) (target : Path) : Except Fault Store := do
  let place ← s.place p false
  match s.root.find? place with
  | some _ => throw .alreadyExists
  | none => return s.putAt place (.link target.text)

def copy (s : Store) (source target : Path) : Except Fault Store := do
  let target := if s.isDir target then target.child source.name else target
  let same := match s.locate source true, s.locate target true with
    | .ok (a, _), .ok (b, _) => a == b
    | _, _ => false
  if same then throw .sameFile
  match ← s.locate source true with
  | (_, .file content executable) =>
    let place ← s.place target true
    if (s.root.find? place).any Entry.isDir then throw .isDirectory
    return s.putAt place (.file content executable)
  | _ => throw .isDirectory

/-! ## Directories -/

def makeDir (s : Store) (p : Path) : Except Fault Store := do
  let place ← s.place p false
  match s.root.find? place with
  | some _ => throw .alreadyExists
  | none => return s.putAt place .emptyDir

def ensureDir (s : Store) (p : Path) : Except Fault Store :=
  match s.makeDir p with
  | .ok s => .ok s
  | .error fault =>
    match fault with
    | .notFound _ => .error fault
    | _ => if s.isDir p then .ok s else .error fault

/-- Makes a directory and up to `depth` of those that it lies in. -/
def makeDirsFrom : (depth : Nat) → Store → Path → Except Fault Store
  | 0, s, p => s.ensureDir p
  | depth + 1, s, p =>
    match s.makeDir p with
    | .ok s => .ok s
    | .error (.notFound _) => do
      let s ← makeDirsFrom depth s p.parent
      s.ensureDir p
    | .error fault => if s.isDir p then .ok s else .error fault

def makeDirs (s : Store) (p : Path) : Except Fault Store :=
  makeDirsFrom p.names.length s p

def removeTree (s : Store) (p : Path) : Except Fault Store := do
  match ← s.locate p false with
  | (place, .dir _) => return s.eraseAt place
  | (_, .file ..) => throw .notDirectory
  | (_, .link _) => throw .linkedTree

def remove (s : Store) (p : Path) : Except Fault Store :=
  if s.isFile p then s.removeFile p
  else if s.isDir p then s.removeTree p
  else .ok s

/-- Moves an entry. A file takes the place of a file, a directory that of an empty directory. -/
def rename (s : Store) (source target : Path) : Except Fault Store := do
  let (a, e) ← s.locate source false
  let b ← s.place target false
  if a == b then return s
  match s.root.find? b, e.isDir with
  | some (.dir []), true => return (s.eraseAt a).putAt b e
  | some (.dir _), true => throw .notEmpty
  | some _, true => throw .notDirectory
  | some (.dir _), false => throw .isDirectory
  | _, _ => return (s.eraseAt a).putAt b e

end Store

end TypeStub.Files
