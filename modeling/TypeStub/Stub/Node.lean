import TypeStub.Tag
import TypeStub.Text.Space
/-!
# Stub trees

A stub is a tree of nodes, each with its own lines, the nodes inside it, and its tags. Rendering
indents the nodes inside by one level, except those of a module, and leaves out empty lines at the
end of a block.
-/

namespace TypeStub

open TypeStub.Text

/-- A node of a stub. Most nodes have one line; decorators add lines in front of a header. -/
structure Node where
  tags : List Tag
  lines : List String
  children : List Node
  deriving Inhabited

namespace Node

def leaf (tag : Tag) (line : String) : Node :=
  { tags := [tag], lines := [line], children := [] }

def spacer : Node := leaf .spacer ""

def ellipsis : Node := leaf .ellipsis "..."

def isSpacer (n : Node) : Bool :=
  n.tags.contains .spacer

def lastTags (nodes : List Node) : Option (List Tag) :=
  nodes.getLast?.map (·.tags)

def allTags (nodes : List Node) : List Tag :=
  (nodes.flatMap (·.tags)).eraseDups

def indentedLine (depth : Nat) (line : String) : String :=
  String.ofList (stripEnd (List.replicate (4 * depth) ' ' ++ line.toList))

mutual

def render (depth : Nat) : Node → List String
  | { tags, lines, children } =>
    lines.map (indentedLine depth)
      ++ renderAll (if tags.contains .module then depth else depth + 1) children

def renderAll (depth : Nat) : List Node → List String
  | [] => []
  | n :: rest =>
    if n.isSpacer && rest.all isSpacer then [] else n.render depth ++ renderAll depth rest

end

def text (n : Node) : String :=
  Text.join "\n" (n.render 0) ++ "\n"

end Node

end TypeStub
