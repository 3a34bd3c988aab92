import TypeStub.Config.Basic
/-!
# Profiles

A profile is a named set of settings that stand in for those a configuration does not give. The
default profile gives all settings but the choice of a profile.
-/

namespace TypeStub.Config

open TypeStub.Text

/-- A named set of settings. -/
structure Profile where
  name : String
  config : Config
  description : String

def defaultProfile : Profile :=
  { name := "default"
    config :=
      { pythonVersion := some "auto"
        keepDefinitions := some (.expr
          "
                not name_is('_[^_].*')
            ")
        keepTrailingDocstrings := some (.expr
          "
                node_is('variable')
            ")
        addImplicitNoneReturn := some (.expr
          "
                parent_node_is('class') and name_is('__init__')
            ")
        keepIfStatements := some (.flag true)
        flattenIf := some (.expr
          "
                value_is('TYPE_CHECKING')
            ")
        addRedundantEllipsis := some (.flag false)
        keepVariableValue := some (.expr
          "
                annotation_is('TypeAlias|([tT]ype(\\\\[.*\\\\])?)')
                or value_is('(TypeVar|TypeVarTuple|ParamSpec)\\\\(.*\\\\)')
                or value_is('(NamedTuple|NewType|TypedDict)\\\\(.*\\\\)')
                or (parent_node_is('module') and name_is('__all__'))
                or (parent_node_is('class') and name_is('__model__'))
            ")
        keepUnusedImports := some (.flag false)
        format := some (.flag false)
        formatterCmds := some
          [.command
            { name := "isort"
              cmdline :=
                ["isort", "--py", "$\x7bdubstub_py_major\x7d$\x7bdubstub_py_minor\x7d",
                  "--profile", "black", "--settings", "/dev/null", "$\x7bdubstub_file_args\x7d"] },
          .command
            { name := "black"
              cmdline :=
                ["black", "--pyi", "--target-version",
                  "py$\x7bdubstub_py_major\x7d$\x7bdubstub_py_minor\x7d",
                  "--skip-magic-trailing-comma", "--fast", "--config", "/dev/null",
                  "$\x7bdubstub_file_args\x7d"] }] }
    description := join "\n"
      ["The default profile tries to have sensible defaults that match",
       "the official recommendations:",
       "",
       "- Private definitions are removed, and identified by exactly one leading `_`.",
       "- Trailing docstrings are kept for variables.",
       "- We add a `-> None` return type on functions that should have them.",
       "- `if` statements are kept, but `TYPE_CHECKING` guards are merged into the surrounding scope.",
       "- Variable values are kept if they define types according to the `typing` module.",
       "- Unused imports are remove.",
       "- Autoformatting is disabled, but will use isort and black with default settings if enabled."] }

def noPrivacyProfile : Profile :=
  { name := "no_privacy"
    config :=
      { keepDefinitions := some (.flag true)
        keepUnusedImports := some (.flag true) }
    description := join "\n"
      ["This profile is the same as `default`, but with privacy disabled:",
       "",
       "- No definitions with \"private\" names are filtered out.",
       "- No unused imports are filtered out."] }

def pyrightProfile : Profile :=
  { name := "pyright"
    config :=
      { keepDefinitions := some (.expr
          "
                not (node_is('function') and name_is('_[^_].*'))
            ")
        addRedundantEllipsis := some (.expr
          "
                not any_child_node_is('function|assigned|class')
            ")
        keepTrailingDocstrings := some (.flag false) }
    description := join "\n"
      ["This profiles tries to approximate `pyright`s stubgen behavior better:",
       "",
       "- Only private functions are removed.",
       "- Redundant ellipsis are added to a few locations.",
       "- Trailing docstrings are removed."] }

def profiles : List Profile :=
  [defaultProfile, noPrivacyProfile, pyrightProfile]

def profileNamed? (name : String) : Option Profile :=
  profiles.find? (·.name == name)

end TypeStub.Config
