import TypeStub.Data.Value
import TypeStub.Text.Lines
/-!
# Writing TOML

A table is written as its plain entries followed by its sub-tables. A list of tables becomes an
array of tables unless all of them are short enough to stand in one line each.

The writer stands for that of a library the program uses. What writes documents takes it as a
parameter.
-/

namespace TypeStub.Toml

open TypeStub.Data TypeStub.Text

def indentUnit : String := "    "

def indentOf (level : Nat) : String :=
  String.join (List.replicate level indentUnit)

def maxLineLength : Nat := 100

def isBareKeyChar (c : Char) : Bool :=
  ('a' ≤ c && c ≤ 'z') || ('A' ≤ c && c ≤ 'Z') || isDigit c || c == '-' || c == '_'

/-- A character inside a string in double quotes. -/
def writtenChar (multiline : Bool) (c : Char) : List Char :=
  match c with
  | '"' => ['\\', '"']
  | '\\' => ['\\', '\\']
  | '\n' => if multiline then ['\n'] else ['\\', 'n']
  | '\r' => ['\\', 'r']
  | '\x0c' => ['\\', 'f']
  | '\x08' => ['\\', 'b']
  | '\t' => ['\t']
  | _ => if c.toNat < 32 || c.toNat == 127 then '\\' :: 'u' :: hexDigits 4 c.toNat else [c]

def writtenLine (s : String) : String :=
  String.ofList ('"' :: s.toList.flatMap (writtenChar false) ++ ['"'])

def writtenString (s : String) : String :=
  if s.toList.contains '\n' then
    "\"\"\"\n" ++ String.ofList ((joinLineEnds s.toList).flatMap (writtenChar true)) ++ "\"\"\""
  else writtenLine s

def writtenKey (key : String) : String :=
  if !key.isEmpty && key.toList.all isBareKeyChar then key else writtenLine key

mutual

/-- A value behind a key; `level` is how deep it stands in lists. -/
def literal (level : Nat) : Value → String
  | .null => "null"
  | .bool true => "true"
  | .bool false => "false"
  | .int n => decimalInt n
  | .float x => x.text
  | .str s => writtenString s
  | .moment _ text => text
  | .list [] => "[]"
  | .list (v :: rest) =>
    "[\n" ++ indentOf (level + 1) ++ literal (level + 1) v ++ moreItems (level + 1) rest
      ++ ",\n" ++ indentOf level ++ "]"
  | .table [] => "\x7b\x7d"
  | .table ((key, v) :: rest) =>
    "\x7b " ++ writtenKey key ++ " = " ++ literal 0 v ++ moreEntries rest ++ " \x7d"

def moreItems (level : Nat) : List Value → String
  | [] => ""
  | v :: rest => ",\n" ++ indentOf level ++ literal level v ++ moreItems level rest

def moreEntries : List (String × Value) → String
  | [] => ""
  | (key, v) :: rest => ", " ++ writtenKey key ++ " = " ++ literal 0 v ++ moreEntries rest

end

def isTable : Value → Bool
  | .table _ => true
  | _ => false

def fitsLine (v : Value) : Bool :=
  let line := indentUnit ++ literal 0 v ++ ","
  line.length ≤ maxLineLength && !line.toList.contains '\n'

def isTableArray (items : List Value) : Bool :=
  !items.isEmpty && items.all isTable && !items.all fitsLine

def isLiteral : Value → Bool
  | .table _ => false
  | .list items => !isTableArray items
  | _ => true

def literalLines (entries : List (String × Value)) : String :=
  String.join ((entries.filter fun e => isLiteral e.2).map fun (key, v) =>
    writtenKey key ++ " = " ++ literal 0 v ++ "\n")

def nameBelow (outer key : String) : String :=
  if outer.isEmpty then writtenKey key else outer ++ "." ++ writtenKey key

mutual

/-- The blocks of a table, which are its header and plain entries and those of the tables in it, or
of an array of tables. -/
def blocks (name : String) (inArray : Bool) : Value → List String
  | .table entries =>
    let hasLiterals := entries.any fun e => isLiteral e.2
    let hasTables := entries.any fun e => !isLiteral e.2
    let header :=
      if inArray then "[[" ++ name ++ "]]\n"
      else if !name.isEmpty && (hasLiterals || !hasTables) then "[" ++ name ++ "]\n"
      else ""
    let own := header ++ literalLines entries
    (if own.isEmpty then [] else [own]) ++ entryBlocks name entries
  | .list items => if isTableArray items then arrayBlocks name items else []
  | _ => []

def entryBlocks (name : String) : List (String × Value) → List String
  | [] => []
  | (key, v) :: rest => blocks (nameBelow name key) false v ++ entryBlocks name rest

def arrayBlocks (name : String) : List Value → List String
  | [] => []
  | v :: rest => blocks name true v ++ arrayBlocks name rest

end

abbrev Writer := List (String × Value) → String

def write : Writer := fun entries =>
  join "\n" (blocks "" false (.table entries))

end TypeStub.Toml
