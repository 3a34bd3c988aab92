import TypeStub.Config.Profile
/-!
# Checked configurations

A checked configuration has a value for every setting: its own, that of its profile, or that of the
default profile. Its filters are read and its version is a number.
-/

namespace TypeStub

open TypeStub.Config

/-- Why a configuration is refused. -/
inductive ValidityError
  | unknownProfile (name : String)
  /-- No profile gives a value. -/
  | missing
  | filter (cause : FilterError)
  /-- A version is not of two parts. -/
  | versionForm
  /-- A part of a version is no number. -/
  | versionNumber (part : String) (cause : Text.IntegerError)
  deriving DecidableEq, Repr

/-- The text of an error; empty if there is nothing to say about it. Of a part of a version that is
no number at most 200 characters are shown. -/
def ValidityError.message : ValidityError → String
  | .unknownProfile name => Text.quote name
  | .missing => "value not found in default profile"
  | .filter cause => cause.message?.getD ""
  | .versionForm => ""
  | .versionNumber part .malformed =>
    "invalid literal for int() with base 10: " ++ String.ofList ((Text.quote part).toList.take 200)
  | .versionNumber _ (.tooLong digits) =>
    "Exceeds the limit (4300 digits) for integer string conversion: value has "
      ++ Text.decimal digits ++ " digits; use sys.set_int_max_str_digits() to increase the limit"

/-- A configuration that is complete and was checked. -/
structure ValidConfig where
  profile : String
  pythonVersion : String
  version : Version
  keepDefinitions : Filter
  keepTrailingDocstrings : Filter
  addImplicitNoneReturn : Filter
  keepIfStatements : Filter
  flattenIf : Filter
  addRedundantEllipsis : Filter
  keepVariableValue : Filter
  keepUnusedImports : Filter
  format : Filter
  formatterCmds : List CommandEntry

/-- The version that stands for `auto`. -/
def currentVersion : Version := { major := 3, minor := newestMinor }

def versionPart (part : List Char) : Except ValidityError Int :=
  match Text.readInteger part with
  | .ok n => .ok n
  | .error cause => .error (.versionNumber (String.ofList part) cause)

def readVersion (text : String) : Except ValidityError Version :=
  if text == "auto" then .ok currentVersion
  else
    match Text.splitAt '.' text.toList with
    | [a, b] => do
      let major ← versionPart a
      let minor ← versionPart b
      return { major, minor }
    | _ => .error .versionForm

namespace Config

/-- The value of a setting: the configuration's own, that of the named profile, or that of the
default profile. The named profile is looked up only if it is needed. -/
def resolve {α : Type} (c : Config) (profile : String) (setting : Config → Option α) :
    Except ValidityError α :=
  match setting c with
  | some v => .ok v
  | none =>
    match profileNamed? profile with
    | none => .error (.unknownProfile profile)
    | some p =>
      match setting p.config, setting defaultProfile.config with
      | some v, _ => .ok v
      | none, some v => .ok v
      | none, none => .error .missing

def resolveFilter (c : Config) (profile : String) (setting : Config → Option FilterText) :
    Except ValidityError Filter := do
  let text ← c.resolve profile setting
  match Filter.read text with
  | .ok f => return f
  | .error cause => throw (.filter cause)

def profileName (c : Config) : String :=
  match c.profile with
  | none => "default"
  | some "" => "default"
  | some name => name

def validate (c : Config) : Except ValidityError ValidConfig := do
  let profile := c.profileName
  let pythonVersion ← c.resolve profile (·.pythonVersion)
  let keepDefinitions ← c.resolveFilter profile (·.keepDefinitions)
  let keepTrailingDocstrings ← c.resolveFilter profile (·.keepTrailingDocstrings)
  let addImplicitNoneReturn ← c.resolveFilter profile (·.addImplicitNoneReturn)
  let keepIfStatements ← c.resolveFilter profile (·.keepIfStatements)
  let flattenIf ← c.resolveFilter profile (·.flattenIf)
  let addRedundantEllipsis ← c.resolveFilter profile (·.addRedundantEllipsis)
  let keepVariableValue ← c.resolveFilter profile (·.keepVariableValue)
  let keepUnusedImports ← c.resolveFilter profile (·.keepUnusedImports)
  let format ← c.resolveFilter profile (·.format)
  let formatterCmds ← c.resolve profile (·.formatterCmds)
  let version ← readVersion pythonVersion
  return {
    profile, pythonVersion, version, keepDefinitions, keepTrailingDocstrings,
    addImplicitNoneReturn, keepIfStatements, flattenIf, addRedundantEllipsis, keepVariableValue,
    keepUnusedImports, format, formatterCmds }

end Config

namespace ValidConfig

def toConfig (v : ValidConfig) : Config :=
  { profile := some v.profile
    pythonVersion := some v.pythonVersion
    keepDefinitions := some v.keepDefinitions.raw
    keepTrailingDocstrings := some v.keepTrailingDocstrings.raw
    addImplicitNoneReturn := some v.addImplicitNoneReturn.raw
    keepIfStatements := some v.keepIfStatements.raw
    flattenIf := some v.flattenIf.raw
    addRedundantEllipsis := some v.addRedundantEllipsis.raw
    keepVariableValue := some v.keepVariableValue.raw
    keepUnusedImports := some v.keepUnusedImports.raw
    format := some v.format.raw
    formatterCmds := some v.formatterCmds }

def every (v : ValidConfig) : List Filter :=
  [v.keepDefinitions, v.keepTrailingDocstrings, v.addImplicitNoneReturn, v.keepIfStatements,
    v.flattenIf, v.addRedundantEllipsis, v.keepVariableValue, v.keepUnusedImports, v.format]

def keepNew (kept : List Filter) (f : Filter) : List Filter :=
  if kept.any (·.raw == f.raw) then kept else kept ++ [f]

/-- The filters of a configuration, one for each text. -/
def filters (v : ValidConfig) : List Filter :=
  v.every.foldl keepNew []

def filterOf? (v : ValidConfig) (raw : FilterText) : Option Filter :=
  v.filters.find? (·.raw == raw)

end ValidConfig

end TypeStub
