import TypeStub.Config.TypeModel
/-!
# Settings

The settings of a configuration: their names, their types, and what they are for.
-/

namespace TypeStub.Config

open TypeStub.Text

/-- A setting. -/
inductive Field
  | profile
  | pythonVersion
  | keepDefinitions
  | keepTrailingDocstrings
  | addImplicitNoneReturn
  | keepIfStatements
  | flattenIf
  | addRedundantEllipsis
  | keepVariableValue
  | keepUnusedImports
  | format
  | formatterCmds
  deriving DecidableEq, Repr, Inhabited

/-- What the value of a setting is: a text, a filter, or a list of formatter commands. -/
inductive FieldKind
  | text
  | filter
  | commands
  deriving DecidableEq, Repr

namespace Field

def all : List Field :=
  [.profile, .pythonVersion, .keepDefinitions, .keepTrailingDocstrings, .addImplicitNoneReturn,
    .keepIfStatements, .flattenIf, .addRedundantEllipsis, .keepVariableValue,
    .keepUnusedImports, .format, .formatterCmds]

def key : Field → String
  | .profile => "profile"
  | .pythonVersion => "python_version"
  | .keepDefinitions => "keep_definitions"
  | .keepTrailingDocstrings => "keep_trailing_docstrings"
  | .addImplicitNoneReturn => "add_implicit_none_return"
  | .keepIfStatements => "keep_if_statements"
  | .flattenIf => "flatten_if"
  | .addRedundantEllipsis => "add_redundant_ellipsis"
  | .keepVariableValue => "keep_variable_value"
  | .keepUnusedImports => "keep_unused_imports"
  | .format => "format"
  | .formatterCmds => "formatter_cmds"

def ofKey? (name : String) : Option Field :=
  all.find? (·.key == name)

def kind : Field → FieldKind
  | .profile | .pythonVersion => .text
  | .formatterCmds => .commands
  | _ => .filter

def rawTypes (f : Field) : List TypeModel :=
  match f.kind with
  | .text => [.named "str"]
  | .filter => [.named "str", .named "bool"]
  | .commands => [.generic "list" [.named "FormatterCmd"]]

def validatedType (f : Field) : TypeModel :=
  match f.kind with
  | .text => .named "str"
  | .filter => .named "Pattern"
  | .commands => .generic "list" [.named "FormatterCmd"]

def description : Field → String
  | .profile => join "\n"
    ["Base profile to use for config settings.",
     "",
     "Any explicitly set config values will overwrite those defined by the profile."]
  | .pythonVersion => join "\n"
    ["Version of python syntax to target.",
     "",
     "Valid forms are `\"X.Y\"` and `\"auto\"`, the latter of which derives",
     "the version from the current python interpreter."]
  | .keepDefinitions => join "\n"
    ["Whether to keep a class, function, or variable definition during type stubbing.",
     "",
     "This can be used to remove private elements (ie, those starting with a single `_`)."]
  | .keepTrailingDocstrings => join "\n"
    ["Whether to keep a trailing docstring for an element.",
     "",
     "A trailing docstring is defined as a string literal that is not the first",
     "statement in a module, class or function block.",
     "",
     "These kinds of docstrings are supported by some documentation generators and IDE",
     "plugins.",
     "",
     "Example:",
     "```python",
     "class foo:",
     "    \"\"\"normal docstring\"\"\"",
     "    x: y = z",
     "    \"\"\"trailing docstring\"\"\"",
     "```"]
  | .addImplicitNoneReturn => join "\n"
    ["Whether to add a `-> None` return type to a function that has not specified a",
     "return type annotation."]
  | .keepIfStatements => join "\n"
    ["Whether to keep an `if` statement.",
     "",
     "If an `if` statement is kept, its condition expression will be kept fully,",
     "and its body will be recursively stubbed."]
  | .flattenIf => join "\n"
    ["Whether to flatten the first body of an `if` into the surrounding scope.",
     "",
     "This setting combines with `keep_if_statements`: If an `if` statement is matched",
     "by both, the first body of the kept `if` will be empty.",
     "",
     "This does not apply to `elif` cases of an `if`."]
  | .addRedundantEllipsis => join "\n"
    ["Whether to add redundant ellipsis (`...`) statements to bodies of statements that are not empty after stubbing.",
     "",
     "Example:",
     "```python",
     "class foo:",
     "    ... # always added",
     "class bar:",
     "    x = y",
     "    ... # redundant",
     "```"]
  | .keepVariableValue => join "\n"
    ["Whether to keep the assignment value of a variable definition.",
     "If the value is not kept, it is replaced with an ellipsis (`...`).",
     "",
     "Example:",
     "```python",
     "foo = 42        # value kept",
     "foo: bar = 42   # value kept",
     "foo = ...       # value not kept",
     "foo: bar = ...  # value not kept",
     "```"]
  | .keepUnusedImports => join "\n"
    ["Whether to keep import statements that seem to not be used anywhere",
     "in the module.",
     "",
     "Note that this is a heuristic based on searching for the imported name,",
     "it can have false positives, which erroneously consider an import used.",
     "",
     "Both normal python code, as well the contents of `__all__` list strings will be considered.",
     "",
     "Certain imports will be interpreted as re-exports, and always considered used.",
     "",
     "For example, given this code:",
     "```python",
     "x: Foo",
     "```",
     "Then imports would be considered like this:",
     "```python",
     "from foo import Foo   # considered used",
     "from bar import Bar   # considered not used",
     "import X as X         # considered used (always)",
     "import a.b.X as X     # considered not used",
     "from Y import X as X  # considered used (always)",
     "from Y import *       # considered used (always)",
     "```",
     "",
     "See also https://typing.readthedocs.io/en/latest/spec/distributing.html#import-conventions"]
  | .format => join "\n"
    ["Enable autoformatting of the generated typestub code.",
     "",
     "The default output of this tool follows no consistent formatting style:",
     "Individual lines either contain a single large statement, or are copy-pasted from the original source verbatim.",
     "",
     "If enabled, the generated or copied `.pyi` files will be passed to the commands specified by `formatter_cmds`."]
  | .formatterCmds => join "\n"
    ["List of formatter cmds that will be executed on generated and copied `.pyi` files.",
     "",
     "Each `FormatterCmd` is an object with an arbitrary `name`, and a `cmdline` list",
     "that defines how to execute the command:",
     "",
     "```toml",
     "[[tool.dubstub.formatter_cmds]]",
     "name = \"<cmd name>\"",
     "cmdline = [",
     "    \"<cmd>\",",
     "    \"<arg1>\",",
     "    \"<arg2>\",",
     "    ...",
     "]",
     "```",
     "",
     "There are a number of variable substitutions supported for the `cmdline` arguments:",
     "",
     "- `$\x7bdubstub_py_major\x7d` will be replaced by the major version of python selected",
     "   with the `python_version` config setting.",
     "- `$\x7bdubstub_py_minor\x7d` will be replaced by the minor version of python selected",
     "   with the `python_version` config setting.",
     "- `$\x7bdubstub_py_exe\x7d` will be replaced by the path to the current python executable (`sys.executable`).",
     "- `$\x7bdubstub_file_arg\x7d` will be replaced with the path to a file that should be formatted in-place.",
     "- `$\x7bdubstub_file_args\x7d` will be replaced with the path to a file that should be formatted in-place,",
     "  and will also cause the argument to expand into multiple arguments, one for each file.",
     "",
     "The commands will be executed in series, with the output of one feeding into the next one.",
     "The difference between the last two substitution options is that `dubstub_file_arg` will call the command",
     "once for every single file, while `dubstub_file_args` will batch multiple files into a single command call.",
     "",
     "Examples:",
     "",
     "- `cmdline = [\"black\", \"$\x7bdubstub_file_arg\x7d\"]`",
     "  will cause these command calls:",
     "  ```bash",
     "  black file1.pyi",
     "  black file2.pyi",
     "  black file3.pyi",
     "  ...",
     "  ```",
     "- `cmdline = [\"black\", \"$\x7bdubstub_file_args\x7d\"]`",
     "  will cause these command calls:",
     "  ```bash",
     "  black file1.pyi file2.pyi file3.pyi ...",
     "  ```"]

end Field

end TypeStub.Config
