import TypeStub.Tag
/-!
# What a filter sees

A filter decides about one node at a time. It sees the node's tags and those of the node around
it, the path of the file, and, where the node has them, a name, the text of an annotation, the text
of a value, and the tags of the nodes inside.
-/

namespace TypeStub.Filter

structure Context where
  parentTags : List Tag
  tags : List Tag
  filePath : String
  name : Option String := none
  annot : Option String := none
  value : Option String := none
  childTags : Option (List Tag) := none
  deriving DecidableEq, Repr, Inhabited

/-- What of a context a condition can ask about. -/
inductive Subject
  | parentNode
  | node
  | filePath
  | name
  | annot
  | value
  | anyChildNode
  deriving DecidableEq, Repr

namespace Subject

def all : List Subject :=
  [.parentNode, .node, .filePath, .name, .annot, .value, .anyChildNode]

def functionName : Subject → String
  | .parentNode => "parent_node_is"
  | .node => "node_is"
  | .filePath => "file_path_is"
  | .name => "name_is"
  | .annot => "annotation_is"
  | .value => "value_is"
  | .anyChildNode => "any_child_node_is"

def ofFunctionName? (name : String) : Option Subject :=
  all.find? (·.functionName == name)

def texts : Subject → Context → List String
  | .parentNode, ctx => ctx.parentTags.map Tag.text
  | .node, ctx => ctx.tags.map Tag.text
  | .filePath, ctx => [ctx.filePath]
  | .name, ctx => ctx.name.toList
  | .annot, ctx => ctx.annot.toList
  | .value, ctx => ctx.value.toList
  | .anyChildNode, ctx => (ctx.childTags.getD []).map Tag.text

end Subject

end TypeStub.Filter
