import TypeStub.Text.Decimal
/-!
# Options of a command

A command takes options of the form `--name`, `--name value` and `--name=value`. A name may be cut
short as long as it stays unique. Anything else on the line is refused.
-/

namespace TypeStub.CommandLine

open TypeStub.Text

inductive OptionKind where
  /-- Asks for help. -/
  | help
  /-- Is given or not. -/
  | flag
  /-- Takes a value that passes a test. -/
  | value (accepts : String → Bool)

/-- An option: its name with the dashes, what it does, and whether it has to be given. -/
structure OptionSpec where
  name : String
  kind : OptionKind
  required : Bool := false

def helpCode : Int := 0

def usageCode : Int := 2

abbrev Options := List OptionSpec

def helpOptions : Options :=
  [{ name := "-h", kind := .help }, { name := "--help", kind := .help }]

inductive Word where
  /-- A value or something that is not expected. -/
  | plain (text : String)
  /-- Two dashes: no options follow. -/
  | dashes
  /-- An option, with the value that is attached to it. -/
  | known (option : OptionSpec) (attached : Option String)
  /-- An option that does not exist. -/
  | unknown

def isNegativeNumber (text : List Char) : Bool :=
  let digit (c : Char) : Bool := (digitValue? c.toNat).isSome
  match text with
  | '-' :: rest =>
    let rest := if rest.getLast? == some '\n' then rest.dropLast else rest
    let front := rest.takeWhile digit
    match rest.drop front.length with
    | [] => !front.isEmpty
    | '.' :: places => !places.isEmpty && places.all digit
    | _ => false
  | _ => false

def splitAttached (text : String) : String × Option String :=
  match cut? ['='] text.toList with
  | some (name, value) => (String.ofList name, some (String.ofList value))
  | none => (text, none)

/-- The options that a text with dashes may stand for, with the attached values. A single dash
introduces a letter, and what follows is attached to it. -/
def readings (options : Options) (text : String) : List Word :=
  if startsWith ['-', '-'] text.toList then
    let (name, attached) := splitAttached text
    (options.filter fun o => startsWith name.toList o.name.toList).map fun o => .known o attached
  else
    let letter := String.ofList (text.toList.take 2)
    options.filterMap fun o =>
      if o.name == letter then some (.known o (some (String.ofList (text.toList.drop 2))))
      else if startsWith text.toList o.name.toList then some (.known o none)
      else none

def readWord (options : Options) (text : String) : Option Word :=
  if !startsWith ['-'] text.toList then some (.plain text)
  else
    match options.find? (·.name == text) with
    | some o => some (.known o none)
    | none =>
      if text == "-" then some (.plain text)
      else
        let (name, attached) := splitAttached text
        match attached, options.find? (·.name == name) with
        | some value, some o => some (.known o (some value))
        | _, _ =>
          match readings options text with
          | [] =>
            if isNegativeNumber text.toList || text.toList.contains ' ' then some (.plain text)
            else some .unknown
          | [word] => some word
          | _ => none

def readWords (options : Options) : List String → Option (List Word)
  | [] => some []
  | "--" :: rest => some (.dashes :: rest.map .plain)
  | text :: rest => do
    let word ← readWord options text
    let words ← readWords options rest
    return word :: words

/-- The options that were given, in order, with their values. -/
structure Given where
  entries : List (String × String) := []
  /-- Something on the line is not expected. -/
  strange : Bool := false
  deriving DecidableEq, Repr

namespace Given

def value? (g : Given) (name : String) : Option String :=
  g.entries.reverse.lookup name

def has (g : Given) (name : String) : Bool :=
  (g.value? name).isSome

end Given

def takeWords (given : Given) : List Word → Except Int Given
  | [] => .ok given
  | .plain _ :: rest | .dashes :: rest | .unknown :: rest =>
    takeWords { given with strange := true } rest
  | .known o attached :: rest =>
    match o.kind, attached, rest with
    | .help, none, _ => .error helpCode
    | .help, some letters, _ =>
      -- More letters may follow a letter, and there is only this one.
      .error (if o.name == "-h" && !letters.isEmpty && letters.toList.all (· == 'h')
        then helpCode else usageCode)
    | .flag, none, rest => takeWords { given with entries := given.entries ++ [(o.name, "")] } rest
    | .flag, some _, _ => .error usageCode
    | .value accepts, some text, rest =>
      if accepts text then
        takeWords { given with entries := given.entries ++ [(o.name, text)] } rest
      else .error usageCode
    | .value accepts, none, .plain text :: rest =>
      if accepts text then
        takeWords { given with entries := given.entries ++ [(o.name, text)] } rest
      else .error usageCode
    | .value _, none, _ => .error usageCode

def readOptions (options : Options) (line : List String) : Except Int Given := do
  let options := helpOptions ++ options
  let words ← match readWords options line with
    | some words => .ok words
    | none => .error usageCode
  let given ← takeWords {} words
  if given.strange || options.any (fun o => o.required && !given.has o.name) then
    throw usageCode
  return given

end TypeStub.CommandLine
