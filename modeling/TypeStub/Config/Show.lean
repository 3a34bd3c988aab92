import TypeStub.Config.Basic
import TypeStub.Data.Json
import TypeStub.Toml.Writer
/-!
# Showing configurations

A configuration as a table of its settings, and that table as lines, as JSON or as TOML.
-/

namespace TypeStub.Config

open TypeStub.Data TypeStub.Text

/-- Why a configuration cannot be shown: an item of the list of formatter commands is none. -/
inductive ShowError
  | notCommand
  deriving DecidableEq, Repr

/-- The value that a filter is shown as. Truth values that were written as text are truth values;
`indented` texts are set off line by line. -/
def filterValue (indented : Bool) : FilterText → Value
  | .flag b => .bool b
  | .expr text =>
    if text == "True" then .bool true
    else if text == "False" then .bool false
    else if indented then
      let lines := splitLines (strip (dedent text.toList))
      .str (String.ofList (lines.flatMap fun line => "    ".toList ++ line ++ ['\n']))
    else .str text

def commandValue : CommandEntry → Except ShowError Value
  | .command cmd =>
    .ok (.table [("name", .str cmd.name), ("cmdline", .list (cmd.cmdline.map .str))])
  | .other _ => .error .notCommand

def settingValue (indented : Bool) : Setting → Except ShowError Value
  | .text s => .ok (.str s)
  | .filter text => .ok (filterValue indented text)
  | .commands entries => do
    let items ← entries.mapM commandValue
    return .list items

def shownSetting (c : Config) (indented : Bool) (f : Field) :
    Except ShowError (List (String × Value)) :=
  match c.get f with
  | none => return []
  | some setting => do
    let v ← settingValue indented setting
    return [(f.key, v)]

def entries (c : Config) (indented : Bool) : Except ShowError (List (String × Value)) := do
  let all ← Field.all.mapM (c.shownSetting indented)
  return all.flatten

def entriesFor (c : Config) (format : String) : Except ShowError (List (String × Value)) :=
  c.entries (format == "toml")

/-- A configuration in one of the formats; `toml` writes the last of them. -/
def render (c : Config) (format : String) (toml : Toml.Writer := Toml.write) :
    Except ShowError String := do
  let shown ← c.entriesFor format
  let document : List (String × Value) := [("tool", .table [("dubstub", .table shown)])]
  let text :=
    if format == "plain" then
      String.join (shown.map fun (key, v) => key ++ "=" ++ v.plain ++ "\n")
    else if format == "json" then Json.write 0 (.table document)
    else if format == "toml" then toml document
    else ""
  return String.ofList (strip text.toList)

end TypeStub.Config
