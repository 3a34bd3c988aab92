/-!
# Tags

What a node of a stub is. A node can have several tags: an assignment with an annotation is a
variable, annotated, and perhaps assigned.
-/

namespace TypeStub

inductive Tag
  | module
  | classDef
  | function
  | imports
  | typeAlias
  | variable
  | annotated
  | assigned
  | if
  | docstring
  | ellipsis
  | spacer
  deriving DecidableEq, Repr, Inhabited

namespace Tag

def all : List Tag :=
  [.module, .classDef, .function, .imports, .typeAlias, .variable, .annotated, .assigned, .if,
    .docstring, .ellipsis, .spacer]

def text : Tag → String
  | .module => "module"
  | .classDef => "class"
  | .function => "function"
  | .imports => "import"
  | .typeAlias => "type_alias"
  | .variable => "variable"
  | .annotated => "annotated"
  | .assigned => "assigned"
  | .if => "if"
  | .docstring => "docstring"
  | .ellipsis => "ellipsis"
  | .spacer => "spacer"

def ofText? (word : String) : Option Tag :=
  all.find? (·.text == word)

end Tag

end TypeStub
