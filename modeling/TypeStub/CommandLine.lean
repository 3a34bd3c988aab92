import TypeStub.CommandLine.Options
import TypeStub.Comparison
import TypeStub.Docs.Update
import TypeStub.Generator
/-!
# The command line

There are four commands: one generates stubs, one runs several generators side by side, one compares
their results, and one shows the configuration.
-/

namespace TypeStub.CommandLine

open TypeStub.Text TypeStub.Files TypeStub.WorkM

inductive Command where
  | generate
  | evaluate
  | compare
  | configure
  deriving DecidableEq, Repr

def anyText : OptionKind := .value fun _ => true

def oneOf (choices : List String) : OptionKind := .value choices.contains

def optionFields : List Config.Field :=
  Config.Field.all.filter fun f => f.kind != .commands

def optionName (f : Config.Field) : String := "--" ++ f.key

def settingOptions : Options :=
  { name := "--config", kind := anyText }
    :: optionFields.map fun f => { name := optionName f, kind := anyText }

def pathOptions : Options :=
  [{ name := "--input", kind := anyText, required := true },
    { name := "--output", kind := anyText, required := true }]

namespace Command

def all : List Command := [.generate, .evaluate, .compare, .configure]

def name : Command → String
  | .generate => "gen"
  | .evaluate => "eval"
  | .compare => "diff"
  | .configure => "config"

def named? (name : String) : Option Command :=
  all.find? (·.name == name)

def options : Command → Options
  | .generate => pathOptions ++ settingOptions
  | .evaluate =>
    pathOptions
      ++ [{ name := "--type", kind := oneOf (Generator.all.map (·.name) ++ ["all"]) },
        { name := "--group", kind := anyText }]
      ++ settingOptions
  | .compare =>
    [{ name := "--eval", kind := anyText, required := true },
      { name := "--left", kind := anyText }, { name := "--right", kind := anyText },
      { name := "--width", kind := .value fun t => (readInteger t.toList).isOk },
      { name := "--hide-missing", kind := .flag }]
  | .configure =>
    [{ name := "--show", kind := .flag },
      { name := "--show-format", kind := oneOf ["plain", "json", "toml"] },
      { name := "--gen-docs", kind := anyText }]
      ++ settingOptions

end Command

/-- The command and the options of a line. Options in front of the command are help or refused, and
the options of the command are read before those are refused. -/
def readLine (strange : Bool) : List String → Except Int (Command × Given)
  | [] => .error usageCode
  | text :: rest =>
    if text == "--" then .error usageCode
    else
      match readWord helpOptions text with
      | some (.plain name) =>
        match Command.named? name with
        | none => .error usageCode
        | some command => do
          let given ← readOptions command.options rest
          if strange then throw usageCode
          return (command, given)
      | some .unknown => readLine true rest
      | some word => do
        let _ ← takeWords {} [word]
        throw usageCode
      | none => .error usageCode

def path? (given : Given) (name : String) : Option Path :=
  (given.value? name).map .read

def path (given : Given) (name : String) : Path :=
  (path? given name).getD (.read "")

def readConfig (path : Path) : WorkM Config := do
  let text ← look (·.readText path)
  ofExcept .config (Config.ofToml text)

def setOption (given : Given) (c : Config) (f : Config.Field) : Except ConfigError Config :=
  match given.value? (optionName f) with
  | some text => if text.isEmpty then .ok c else c.set f.key (.scalar (.str text))
  | none => .ok c

def withOptions (given : Given) (config : Config) : Except ConfigError Config :=
  optionFields.foldlM (setOption given) config

def fileConfig (given : Given) : WorkM Config :=
  match path? given "--config" with
  | some path => readConfig path
  | none => pure {}

def configOf (given : Given) : WorkM Config := do
  let base ← fileConfig given
  ofExcept .config (withOptions given base)

def runGenerate (given : Given) : WorkM Unit :=
  withExtra .defaultFormatters do
    let config ← configOf given
    Generation.generate config (path given "--input") (path given "--output")

def runEvaluate (given : Given) : WorkM Unit := do
  let config ← configOf given
  Generator.evaluate config (path given "--input") (path given "--output")
    (given.value? "--group") [(given.value? "--type").getD "all"]

def runCompare (given : Given) : WorkM Unit :=
  let width := (given.value? "--width").bind fun t => (readInteger t.toList).toOption
  Comparison.compare
    { base := path given "--eval"
      left := (given.value? "--left").getD "pyright"
      right := (given.value? "--right").getD "dubstub"
      width := width.getD 160
      hideMissing := given.has "--hide-missing" }

def runConfigure (given : Given) : WorkM Unit := do
  let config ← configOf given
  match path? given "--gen-docs" with
  | some path => Docs.update path
  | none =>
    let valid ← ofExcept .validity config.validate
    let text ← ofExcept .settings
      (valid.toConfig.render ((given.value? "--show-format").getD "plain"))
    say text

def Command.run (c : Command) (given : Given) : WorkM Unit :=
  match c with
  | .generate => runGenerate given
  | .evaluate => runEvaluate given
  | .compare => runCompare given
  | .configure => runConfigure given

def run (line : List String) : WorkM Unit := do
  let (command, given) ← ofExcept .exit (readLine false line)
  withExtra .defaultFormatters (withExtra .evaluation (command.run given))

end TypeStub.CommandLine
