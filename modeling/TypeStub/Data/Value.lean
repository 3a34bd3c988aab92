import TypeStub.Number.Binary64
import TypeStub.Text.Quoted
/-!
# Values of data files

The values that configuration data is made of. Tables keep their entries in the order in which
they were made.
-/

namespace TypeStub.Data

open TypeStub.Number TypeStub.Text

/-- A floating point number. -/
inductive FloatValue
  | number (negative : Bool) (magnitude : Binary64)
  | nan
  deriving DecidableEq, Repr, Inhabited

/-- What a date or time gives: both, the day, or the time of day. -/
inductive MomentKind
  | datetime
  | date
  | time
  deriving DecidableEq, Repr, Inhabited

/-- A value. Dates and times are kept in their written form. -/
inductive Value
  | null
  | bool (value : Bool)
  | int (value : Int)
  | float (value : FloatValue)
  | str (text : String)
  | moment (kind : MomentKind) (text : String)
  | list (items : List Value)
  | table (entries : List (String × Value))
  deriving Inhabited

/-- A floating point number shows a point or an exponent. -/
def floatFormat : Binary64.DecimalFormat := { infinity := "inf", keepPoint := true }

def FloatValue.text : FloatValue → String
  | .nan => "nan"
  | .number negative magnitude => (if negative then "-" else "") ++ magnitude.render floatFormat

namespace Value

def typeName : Value → String
  | .null => "NoneType"
  | .bool _ => "bool"
  | .int _ => "int"
  | .float _ => "float"
  | .str _ => "str"
  | .moment .datetime _ => "datetime"
  | .moment .date _ => "date"
  | .moment .time _ => "time"
  | .list _ => "list"
  | .table _ => "dict"

def boolText (b : Bool) : String :=
  if b then "True" else "False"

mutual

def term : Value → String
  | .null => "None"
  | .bool b => boolText b
  | .int n => decimalInt n
  | .float x => x.text
  | .str s => quote s
  | .moment _ text => text
  | .list items => "[" ++ join ", " (terms items) ++ "]"
  | .table entries => "\x7b" ++ join ", " (entryTerms entries) ++ "\x7d"

def terms : List Value → List String
  | [] => []
  | v :: rest => term v :: terms rest

def entryTerms : List (String × Value) → List String
  | [] => []
  | (key, v) :: rest => (quote key ++ ": " ++ term v) :: entryTerms rest

end

/-- The text of a value on its own: as a term, but without quotes around a text. -/
def plain : Value → String
  | .str s => s
  | v => term v

def lookup (entries : List (String × Value)) (key : String) : Option Value :=
  entries.lookup key

end Value

end TypeStub.Data
