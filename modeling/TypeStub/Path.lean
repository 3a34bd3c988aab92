import TypeStub.Text.Split
/-!
# Paths

A path is a root, which may be empty, and a list of names. Empty names and `.` are left out when a
path is read.
-/

namespace TypeStub

open TypeStub.Text

/-- A path. The root is empty, `/`, or `//`. -/
structure Path where
  root : String
  names : List String
  deriving DecidableEq, Repr, Inhabited

namespace Path

def splitRoot (text : List Char) : String × List Char :=
  let slashes := countLeading '/' text
  (if slashes == 0 then "" else if slashes == 2 then "//" else "/", text.drop slashes)

def read (text : String) : Path :=
  let (root, rest) := splitRoot text.toList
  { root, names := ((splitAt '/' rest).map String.ofList).filter fun n => n != "" && n != "." }

/-- The text of a path; an empty path is `.`. -/
def text (p : Path) : String :=
  if p.root.isEmpty && p.names.isEmpty then "." else p.root ++ Text.join "/" p.names

def absolute (names : List String) : Path :=
  { root := "/", names }

def isAbsolute (p : Path) : Bool :=
  !p.root.isEmpty

/-- A path below another; an absolute one stands for itself. -/
def join (p q : Path) : Path :=
  if q.isAbsolute then q else { p with names := p.names ++ q.names }

def child (p : Path) (name : String) : Path :=
  { p with names := p.names ++ [name] }

/-- The directory that a path lies in. A path without names is its own. -/
def parent (p : Path) : Path :=
  { p with names := p.names.dropLast }

def name (p : Path) : String :=
  p.names.getLast?.getD ""

/-- A name cut before its last dot. A dot at one of the ends of the name does not count. -/
def splitName (name : String) : String × String :=
  let chars := name.toList.reverse
  let back := chars.takeWhile (· != '.')
  let front := (chars.drop (back.length + 1)).reverse
  if back.isEmpty || front.isEmpty then (name, "")
  else (String.ofList front, String.ofList ('.' :: back.reverse))

def stem (p : Path) : String :=
  (splitName p.name).1

def suffix (p : Path) : String :=
  (splitName p.name).2

def withSuffix? (p : Path) (suffix : String) : Option Path :=
  if p.name.isEmpty then none
  else some { p with names := p.names.dropLast ++ [p.stem ++ suffix] }

/-- The part of a path below another; none if it does not lie there. -/
def relativeTo? (p base : Path) : Option Path :=
  if p.root == base.root then
    (dropPrefix? base.names p.names).map fun names => { root := "", names }
  else none

def parts (p : Path) : List String :=
  if p.root.isEmpty then p.names else p.root :: p.names

/-- Whether a path comes before another: paths are ordered part by part. -/
def before (p q : Path) : Bool :=
  decide (p.parts < q.parts)

def sorted (paths : List Path) : List Path :=
  paths.eraseDups.mergeSort fun p q => !q.before p

end Path

end TypeStub
