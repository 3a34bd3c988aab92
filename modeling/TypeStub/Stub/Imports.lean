import TypeStub.Syntax.Tree
import TypeStub.Text.Split
/-!
# Imports

Which name an import binds, and which imports make a name part of a module's interface.
-/

namespace TypeStub.Syntax.Alias

/-- Whether an import passes a name on: all names at once, or a name bound to itself. -/
def isExport (a : Alias) : Bool :=
  a.name == "*" || a.asName == some a.name

def boundName (a : Alias) : String :=
  match a.asName with
  | some name => name
  | none => String.ofList (a.name.toList.takeWhile (· != '.'))

/-- Whether an import is kept if only the names in `used` are needed. -/
def isNeeded (used : List String) (a : Alias) : Bool :=
  a.boundName == "*" || used.contains a.boundName || a.isExport

end TypeStub.Syntax.Alias
