import TypeStub.Text.Split
/-!
# Types of settings

The types that settings are described with: a name, perhaps applied to further types.
-/

namespace TypeStub.Config

inductive TypeModel
  | generic (name : String) (args : List TypeModel)
  deriving Inhabited

namespace TypeModel

def named (name : String) : TypeModel :=
  .generic name []

def name : TypeModel → String
  | .generic name _ => name

def args : TypeModel → List TypeModel
  | .generic _ args => args

mutual

def text : TypeModel → String
  | .generic name args =>
    match args with
    | [] => name
    | a :: rest => name ++ "[" ++ a.text ++ moreTexts rest ++ "]"

def moreTexts : List TypeModel → String
  | [] => ""
  | a :: rest => ", " ++ a.text ++ moreTexts rest

end

def argsOf? (t : TypeModel) (name : String) : Option (List TypeModel) :=
  if t.name == name then some t.args else none

end TypeModel

end TypeStub.Config
