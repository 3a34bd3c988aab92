import TypeStub.Config.Field
import TypeStub.Filter
import TypeStub.Toml.Reader
/-!
# Configurations

A configuration gives values to some of the settings. Values come from data files and command
lines; a setting takes only values of its kind.
-/

namespace TypeStub

open TypeStub.Data

/-- A command that formats files in place. -/
structure FormatterCmd where
  name : String
  cmdline : List String
  deriving DecidableEq, Repr, Inhabited

/-- An item of the list of formatter commands. A data file can put anything there. -/
inductive CommandEntry
  | command (cmd : FormatterCmd)
  | other (value : Value)
  deriving Inhabited

structure Config where
  profile : Option String := none
  pythonVersion : Option String := none
  keepDefinitions : Option FilterText := none
  keepTrailingDocstrings : Option FilterText := none
  addImplicitNoneReturn : Option FilterText := none
  keepIfStatements : Option FilterText := none
  flattenIf : Option FilterText := none
  addRedundantEllipsis : Option FilterText := none
  keepVariableValue : Option FilterText := none
  keepUnusedImports : Option FilterText := none
  format : Option FilterText := none
  formatterCmds : Option (List CommandEntry) := none
  deriving Inhabited

/-- Why a configuration cannot be made. -/
inductive ConfigError
  /-- There is no such setting. -/
  | unknownSetting (name : String)
  /-- A data file names a setting that does not exist. -/
  | unknownKey (name : String)
  | wrongType (name typeName : String)
  /-- Nothing was given to read. -/
  | noSource
  /-- A data file is no TOML. -/
  | malformed
  /-- The settings in a data file are no table. -/
  | notTable
  deriving DecidableEq, Repr

def ConfigError.message? : ConfigError → Option String
  | .unknownSetting name => some ("unknown config setting " ++ name)
  | .unknownKey name => some ("unknown config key " ++ name)
  | .wrongType name typeName =>
    some ("wrong type for config setting " ++ name ++ " (got " ++ typeName ++ ")")
  | .noSource => some "one of the function arguments needs to be set"
  | .malformed | .notTable => none

namespace Config

/-- A value of a setting. -/
inductive Setting
  | text (text : String)
  | filter (text : FilterText)
  | commands (entries : List CommandEntry)
  deriving Inhabited

/-- What a setting is to be set to. -/
inductive Given
  | nothing
  | scalar (value : Value)
  | list (entries : List CommandEntry)
  deriving Inhabited

def Given.ofValue : Value → Given
  | .null => .nothing
  | .list items => .list (items.map .other)
  | v => .scalar v

def Given.typeName : Given → String
  | .nothing => Value.null.typeName
  | .scalar v => v.typeName
  | .list _ => "list"

def get (c : Config) : Field → Option Setting
  | .profile => c.profile.map .text
  | .pythonVersion => c.pythonVersion.map .text
  | .keepDefinitions => c.keepDefinitions.map .filter
  | .keepTrailingDocstrings => c.keepTrailingDocstrings.map .filter
  | .addImplicitNoneReturn => c.addImplicitNoneReturn.map .filter
  | .keepIfStatements => c.keepIfStatements.map .filter
  | .flattenIf => c.flattenIf.map .filter
  | .addRedundantEllipsis => c.addRedundantEllipsis.map .filter
  | .keepVariableValue => c.keepVariableValue.map .filter
  | .keepUnusedImports => c.keepUnusedImports.map .filter
  | .format => c.format.map .filter
  | .formatterCmds => c.formatterCmds.map .commands

def putText (c : Config) (f : Field) (v : Option String) : Config :=
  match f with
  | .profile => { c with profile := v }
  | .pythonVersion => { c with pythonVersion := v }
  | _ => c

def putFilter (c : Config) (f : Field) (v : Option FilterText) : Config :=
  match f with
  | .keepDefinitions => { c with keepDefinitions := v }
  | .keepTrailingDocstrings => { c with keepTrailingDocstrings := v }
  | .addImplicitNoneReturn => { c with addImplicitNoneReturn := v }
  | .keepIfStatements => { c with keepIfStatements := v }
  | .flattenIf => { c with flattenIf := v }
  | .addRedundantEllipsis => { c with addRedundantEllipsis := v }
  | .keepVariableValue => { c with keepVariableValue := v }
  | .keepUnusedImports => { c with keepUnusedImports := v }
  | .format => { c with format := v }
  | _ => c

def clear (c : Config) (f : Field) : Config :=
  match f.kind with
  | .text => c.putText f none
  | .filter => c.putFilter f none
  | .commands => { c with formatterCmds := none }

def fieldNamed (name : String) : Except ConfigError Field :=
  match Field.ofKey? name with
  | some f => .ok f
  | none => .error (.unknownSetting name)

def set (c : Config) (name : String) (given : Given) : Except ConfigError Config := do
  let f ← fieldNamed name
  match f.kind, given with
  | _, .nothing => return c.clear f
  | .text, .scalar (.str s) => return c.putText f (some s)
  | .filter, .scalar (.str s) => return c.putFilter f (some (.expr s))
  | .filter, .scalar (.bool b) => return c.putFilter f (some (.flag b))
  | .commands, .list entries => return { c with formatterCmds := some entries }
  | _, _ => throw (.wrongType name given.typeName)

def setAll (c : Config) : List (String × Value) → Except ConfigError Config
  | [] => return c
  | (name, v) :: rest => do
    if (Field.ofKey? name).isNone then throw (.unknownKey name)
    let c ← c.set name (Given.ofValue v)
    setAll c rest

/-- The value of a key of something that must be a table; an empty table if the key is missing. -/
def member (v : Value) (key : String) : Except ConfigError Value :=
  match v with
  | .table entries => .ok ((entries.lookup key).getD (.table []))
  | _ => .error .notTable

def ofValue (v : Value) : Except ConfigError Config := do
  let tool ← member v "tool"
  match ← member tool "dubstub" with
  | .table entries => ({} : Config).setAll entries
  | _ => throw .notTable

def ofToml (text : List Char) : Except ConfigError Config :=
  match Toml.read? text with
  | some entries => ofValue (.table entries)
  | none => .error .malformed

end Config

end TypeStub
