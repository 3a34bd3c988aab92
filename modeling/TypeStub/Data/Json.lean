import TypeStub.Data.Value
/-!
# Writing JSON

Values as indented JSON text in ASCII.
-/

namespace TypeStub.Data.Json

open TypeStub.Text

def escapeUnit (n : Nat) : List Char :=
  '\\' :: 'u' :: hexDigits 4 n

def writtenChar (c : Char) : List Char :=
  match c with
  | '"' => ['\\', '"']
  | '\\' => ['\\', '\\']
  | '\n' => ['\\', 'n']
  | '\r' => ['\\', 'r']
  | '\t' => ['\\', 't']
  | '\x0c' => ['\\', 'f']
  | '\x08' => ['\\', 'b']
  | _ =>
    let n := c.toNat
    if 32 ≤ n && n < 127 then [c]
    else if n < 0x10000 then escapeUnit n
    else escapeUnit (0xD800 + (n - 0x10000) / 0x400) ++ escapeUnit (0xDC00 + (n - 0x10000) % 0x400)

def writtenString (s : String) : String :=
  String.ofList ('"' :: s.toList.flatMap writtenChar ++ ['"'])

def newLine (depth : Nat) : String :=
  "\n" ++ String.ofList (List.replicate (4 * depth) ' ')

mutual

def write (depth : Nat) : Value → String
  | .null => "null"
  | .bool true => "true"
  | .bool false => "false"
  | .int n => decimalInt n
  | .float x => x.text
  | .str s => writtenString s
  | .moment _ text => writtenString text
  | .list [] => "[]"
  | .list (v :: rest) =>
    "[" ++ newLine (depth + 1) ++ write (depth + 1) v ++ writeMore (depth + 1) rest
      ++ newLine depth ++ "]"
  | .table [] => "\x7b\x7d"
  | .table ((key, v) :: rest) =>
    "\x7b" ++ newLine (depth + 1) ++ writtenString key ++ ": " ++ write (depth + 1) v
      ++ writeMoreEntries (depth + 1) rest ++ newLine depth ++ "\x7d"

def writeMore (depth : Nat) : List Value → String
  | [] => ""
  | v :: rest => "," ++ newLine depth ++ write depth v ++ writeMore depth rest

def writeMoreEntries (depth : Nat) : List (String × Value) → String
  | [] => ""
  | (key, v) :: rest =>
    "," ++ newLine depth ++ writtenString key ++ ": " ++ write depth v
      ++ writeMoreEntries depth rest

end

end TypeStub.Data.Json
