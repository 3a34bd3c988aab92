import TypeStub.Data.Value
import TypeStub.Text.Lines
/-!
# Reading TOML

A document is a list of statements: entries, table headers, and headers of array members. The
reader keeps the document built so far and which of its parts may no longer be changed.
-/

namespace TypeStub.Toml

open TypeStub.Data TypeStub.Number TypeStub.Text

abbrev Scan := StateT (List Char) Option

namespace Scan

def peek : Scan (Option Char) := do
  return (← get).head?

def accept (text : String) : Scan Bool := do
  match dropPrefix? text.toList (← get) with
  | some rest =>
    set rest
    return true
  | none => return false

def expect (text : String) : Scan Unit := do
  if ← accept text then return () else failure

/-- Takes the characters that satisfy `p`. -/
def span (p : Char → Bool) : Scan (List Char) := do
  let s ← get
  set (s.dropWhile p)
  return s.takeWhile p

/-- Takes one character that satisfies `p`. -/
def one (p : Char → Bool) : Scan Char := do
  match ← get with
  | c :: rest => if p c then do set rest; return c else failure
  | [] => failure

/-- Tries a reader; without success nothing is taken. -/
def attempt {α : Type} (scan : Scan α) : Scan (Option α) := fun s =>
  match scan s with
  | some (a, rest) => some (some a, rest)
  | none => some (none, s)

end Scan

open Scan

def isBlank (c : Char) : Bool :=
  c == ' ' || c == '\t'

def isControl (c : Char) : Bool :=
  (c.toNat < 32 && c != '\t') || c.toNat == 127

def skipBlanks : Scan Unit := do
  let _ ← span isBlank

def skipComment : Scan Unit := do
  if ← accept "#" then
    let text ← span (· != '\n')
    if text.any isControl then failure

def skipLayout : (fuel : Nat) → Scan Unit
  | 0 => return ()
  | fuel + 1 => do
    let before := (← get).length
    let _ ← span fun c => isBlank c || c == '\n'
    skipComment
    if (← get).length == before then return () else skipLayout fuel

def skipArrayLayout : Scan Unit := do
  skipLayout ((← get).length + 1)

/-! ## Strings -/

/-- A character given by `count` hexadecimal digits. -/
def hexChar (count : Nat) : Scan Char := do
  let s ← get
  let digits := s.take count
  if digits.length == count && digits.all isHexDigit then
    let n := ofDigits 16 digits
    if n.isValidChar then
      set (s.drop count)
      return Char.ofNat n
    else failure
  else failure

def stringEscape (multiline : Bool) : Scan (List Char) := do
  let c ← one fun _ => true
  match c with
  | 'u' => return [← hexChar 4]
  | 'U' => return [← hexChar 8]
  | 'b' => return ['\x08']
  | 't' => return ['\t']
  | 'n' => return ['\n']
  | 'f' => return ['\x0c']
  | 'r' => return ['\r']
  | '"' => return ['"']
  | '\\' => return ['\\']
  | _ =>
    if multiline && c == '\n' then
      let _ ← span fun d => isBlank d || d == '\n'
      return []
    else if multiline && isBlank c then
      skipBlanks
      match ← get with
      | [] => return []
      | d :: rest =>
        if d == '\n' then
          set rest
          let _ ← span fun e => isBlank e || e == '\n'
          return []
        else failure
    else failure

def basicString (multiline : Bool) : (fuel : Nat) → Scan (List Char)
  | 0 => failure
  | fuel + 1 => do
    if multiline then
      if ← accept "\"\"\"" then return []
    let c ← one fun _ => true
    if c == '"' && !multiline then return []
    else if c == '\\' then
      let value ← stringEscape multiline
      let rest ← basicString multiline fuel
      return value ++ rest
    else if isControl c && !(multiline && c == '\n') then failure
    else
      let rest ← basicString multiline fuel
      return c :: rest

def lineString : Scan (List Char) := do
  basicString false ((← get).length + 1)

def literalString : Scan (List Char) := do
  let text ← span (· != '\'')
  expect "'"
  if text.any isControl then failure else return text

def extraQuotes (quote : String) : Scan (List Char) := do
  if ← accept quote then
    if ← accept quote then return quote.toList ++ quote.toList
    else return quote.toList
  else return []

def multilineString : Scan (List Char) := do
  let _ ← accept "\n"
  let text ← basicString true ((← get).length + 1)
  let extra ← extraQuotes "\""
  return text ++ extra

/-- A string in three single quotes, behind them. -/
def multilineLiteral : Scan (List Char) := do
  let _ ← accept "\n"
  match cut? ['\'', '\'', '\''] (← get) with
  | none => failure
  | some (text, rest) =>
    if text.any fun c => isControl c && c != '\n' then failure
    set rest
    let extra ← extraQuotes "'"
    return text ++ extra

/-! ## Keys -/

def isKeyChar (c : Char) : Bool :=
  ('a' ≤ c && c ≤ 'z') || ('A' ≤ c && c ≤ 'Z') || isDigit c || c == '-' || c == '_'

def keyPart : Scan String := do
  if ← accept "'" then return String.ofList (← literalString)
  else if ← accept "\"" then return String.ofList (← lineString)
  else
    match ← span isKeyChar with
    | [] => failure
    | cs => return String.ofList cs

def keyRest : (fuel : Nat) → Scan (List String)
  | 0 => return []
  | fuel + 1 => do
    skipBlanks
    if ← accept "." then
      skipBlanks
      let part ← keyPart
      let rest ← keyRest fuel
      return part :: rest
    else return []

def key : Scan (List String) := do
  let first ← keyPart
  let rest ← keyRest ((← get).length + 1)
  return first :: rest

/-! ## Dates and times -/

/-- Exactly `count` digits. -/
def digits (count : Nat) : Scan Nat := do
  let s ← get
  let ds := s.take count
  if ds.length == count && ds.all isDigit then
    set (s.drop count)
    return ofDigits 10 ds
  else failure

def twoDigits (low high : Nat) : Scan Nat := do
  let n ← digits 2
  if low ≤ n && n ≤ high then return n else failure

def padded (width n : Nat) : String :=
  String.ofList (List.replicate (width - (decimal n).length) '0') ++ decimal n

/-- A time of day, as it is written: to the second, or with six digits behind the second unless
they are zero. -/
def timeOfDay : Scan String := do
  let hour ← twoDigits 0 23
  expect ":"
  let minute ← twoDigits 0 59
  expect ":"
  let second ← twoDigits 0 59
  let fraction ← attempt do
    expect "."
    match ← span isDigit with
    | [] => failure
    | ds => return ds
  let micros := match fraction with
    | some ds =>
      let six := ds.take 6
      ofDigits 10 (six ++ List.replicate (6 - six.length) '0')
    | none => 0
  let base := padded 2 hour ++ ":" ++ padded 2 minute ++ ":" ++ padded 2 second
  return if micros == 0 then base else base ++ "." ++ padded 6 micros

def zoneOffset : Scan String := do
  let c ← one fun c => ['Z', 'z', '+', '-'].contains c
  if c == 'Z' || c == 'z' then return "+00:00"
  else
    let hour ← twoDigits 0 23
    expect ":"
    let minute ← twoDigits 0 59
    let sign := if c == '-' && hour + minute > 0 then "-" else "+"
    return sign ++ padded 2 hour ++ ":" ++ padded 2 minute

def daysIn (year month : Nat) : Nat :=
  if month == 2 then
    (if (year % 4 == 0 && year % 100 != 0) || year % 400 == 0 then 29 else 28)
  else if [4, 6, 9, 11].contains month then 30
  else 31

def calendarDate : Scan (Nat × Nat × Nat) := do
  let year ← digits 4
  expect "-"
  let month ← twoDigits 1 12
  expect "-"
  let day ← twoDigits 1 31
  return (year, month, day)

/-- A date, perhaps with a time and a zone. The form is recognised first; a day that does not exist
is an error then. -/
def dateTime? : Scan (Option Value) := do
  match ← attempt calendarDate with
  | none => return none
  | some (year, month, day) =>
    let time ← attempt do
      let _ ← one fun c => ['T', 't', ' '].contains c
      let time ← timeOfDay
      let zone ← attempt zoneOffset
      return time ++ zone.getD ""
    if year == 0 || day > daysIn year month then failure
    let date := padded 4 year ++ "-" ++ padded 2 month ++ "-" ++ padded 2 day
    match time with
    | none => return some (.moment .date date)
    | some t => return some (.moment .datetime (date ++ " " ++ t))

/-! ## Numbers -/

/-- Digits that satisfy `p`, with single underscores between them. -/
def groupedDigits (p : Char → Bool) : List Char → List Char × List Char
  | [] => ([], [])
  | c :: rest =>
    if p c then
      let (ds, left) := groupedDigits p rest
      (c :: ds, left)
    else
      match c, rest with
      | '_', d :: more =>
        if p d then
          let (ds, left) := groupedDigits p more
          (d :: ds, left)
        else ([], c :: rest)
      | _, _ => ([], c :: rest)

/-- One digit or more that satisfy `p`, with single underscores between them. -/
def someDigits (p : Char → Bool) : Scan (List Char) := do
  let first ← one p
  let s ← get
  let (ds, left) := groupedDigits p s
  set left
  return first :: ds

def basedInteger : Scan Nat := do
  if ← accept "0x" then return ofDigits 16 (← someDigits isHexDigit)
  else if ← accept "0o" then
    return ofDigits 8 (← someDigits fun c => '0' ≤ c && c ≤ '7')
  else if ← accept "0b" then return ofDigits 2 (← someDigits fun c => c == '0' || c == '1')
  else failure

def signOf : Scan Bool := do
  if ← accept "-" then return true
  else
    let _ ← accept "+"
    return false

def decimalNumber : Scan Value := do
  let negative ← signOf
  let whole ← do
    if ← accept "0" then pure ['0']
    else
      let first ← one fun c => '1' ≤ c && c ≤ '9'
      let (ds, left) := groupedDigits isDigit (← get)
      set left
      pure (first :: ds)
  let fraction ← attempt do
    expect "."
    someDigits isDigit
  let exponent ← attempt do
    let _ ← one fun c => c == 'e' || c == 'E'
    let below ← signOf
    let ds ← someDigits isDigit
    let n : Int := ofDigits 10 ds
    return if below then -n else n
  match fraction, exponent with
  | none, none =>
    let n : Int := ofDigits 10 whole
    return .int (if negative then -n else n)
  | _, _ =>
    let after := fraction.getD []
    let magnitude :=
      Binary64.ofDecimal (ofDigits 10 (whole ++ after)) (exponent.getD 0 - after.length)
    return .float (.number negative magnitude)

def specialNumber : Scan Value := do
  let negative ← signOf
  if ← accept "inf" then return .float (.number negative .infinite)
  else if ← accept "nan" then return .float .nan
  else failure

/-! ## Tables -/

/-- The tables of a document may be closed to some uses. -/
inductive Mark
  /-- Written inline, and so complete. -/
  | frozen
  /-- Opened by a header or through a key of several parts. -/
  | opened
  deriving DecidableEq, Repr

/-- A mark of a key; a deep mark also holds for everything below. -/
structure Marked where
  path : List String
  mark : Mark
  deep : Bool
  deriving DecidableEq, Repr

def isMarked (marks : List Marked) (path : List String) (mark : Mark) : Bool :=
  marks.any fun m =>
    m.mark == mark && (m.path == path || (m.deep && startsWith m.path path))

abbrev Entries := List (String × Value)

def putEntry (entries : Entries) (k : String) (v : Value) : Entries :=
  match entries with
  | [] => [(k, v)]
  | (k', v') :: rest => if k' == k then (k, v) :: rest else (k', v') :: putEntry rest k v

/-- Changes the table that a path leads to. Missing tables are made on the way, and a list stands
for its last member if `throughLists`. -/
def changeAt (throughLists : Bool) (change : Entries → Option Entries) :
    List String → Entries → Option Entries
  | [], entries => change entries
  | k :: path, entries =>
    match entries.lookup k with
    | none => (changeAt throughLists change path []).map fun t => putEntry entries k (.table t)
    | some (.table t) =>
      (changeAt throughLists change path t).map fun t' => putEntry entries k (.table t')
    | some (.list items) =>
      match throughLists, items.getLast? with
      | true, some (.table t) =>
        (changeAt throughLists change path t).map fun t' =>
          putEntry entries k (.list (items.dropLast ++ [.table t']))
      | _, _ => none
    | some _ => none

def addEntry (k : String) (v : Value) (entries : Entries) : Option Entries :=
  if (entries.lookup k).isSome then none else some (entries ++ [(k, v)])

def addMember (k : String) (entries : Entries) : Option Entries :=
  match entries.lookup k with
  | none => some (entries ++ [(k, .list [.table []])])
  | some (.list items) => some (putEntry entries k (.list (items ++ [.table []])))
  | some _ => none

def isContainer : Value → Bool
  | .list _ | .table _ => true
  | _ => false

/-! ## Values -/

mutual

def value : (fuel : Nat) → Scan Value
  | 0 => failure
  | fuel + 1 => do
    if ← accept "\"\"\"" then return .str (String.ofList (← multilineString))
    else if ← accept "\"" then return .str (String.ofList (← lineString))
    else if ← accept "'''" then return .str (String.ofList (← multilineLiteral))
    else if ← accept "'" then return .str (String.ofList (← literalString))
    else if ← accept "true" then return .bool true
    else if ← accept "false" then return .bool false
    else if ← accept "[" then
      skipArrayLayout
      if ← accept "]" then return .list [] else return .list (← items fuel)
    else if ← accept "\x7b" then
      skipBlanks
      if ← accept "\x7d" then return .table []
      else return .table (← inlineEntries fuel [] [])
    else
      match ← dateTime? with
      | some v => return v
      | none =>
        match ← attempt timeOfDay with
        | some t => return .moment .time t
        | none =>
          match ← attempt basedInteger with
          | some n => return .int n
          | none =>
            match ← attempt decimalNumber with
            | some v => return v
            | none => specialNumber

def items : (fuel : Nat) → Scan (List Value)
  | 0 => failure
  | fuel + 1 => do
    let v ← value fuel
    skipArrayLayout
    if ← accept "]" then return [v]
    else
      expect ","
      skipArrayLayout
      if ← accept "]" then return [v]
      else
        let rest ← items fuel
        return v :: rest

/-- The entries of an inline table up to its closing brace, behind those read so far. -/
def inlineEntries : (fuel : Nat) → List Marked → Entries → Scan Entries
  | 0, _, _ => failure
  | fuel + 1, marks, entries => do
    let k ← key
    expect "="
    skipBlanks
    let v ← value fuel
    if isMarked marks k .frozen then failure
    match changeAt false (addEntry (k.getLastD "") v) k.dropLast entries with
    | none => failure
    | some entries =>
      skipBlanks
      if ← accept "\x7d" then return entries
      else
        expect ","
        skipBlanks
        let marks :=
          if isContainer v then { path := k, mark := .frozen, deep := true } :: marks else marks
        inlineEntries fuel marks entries

end

/-! ## Documents -/

/-- A document under construction: its entries, the marks of its keys, the marks that hold from
the next header on, and the header that stands over the entries. -/
structure Draft where
  entries : Entries
  marks : List Marked
  pending : List Marked
  header : List String

def Draft.add (d : Draft) (k : List String) (v : Value) : Option Draft :=
  let inner := (List.range (k.length - 1)).map fun i => d.header ++ k.take (i + 1)
  let parent := d.header ++ k.dropLast
  if inner.any (isMarked d.marks · .opened) then none
  else if isMarked d.marks parent .frozen then none
  else
    (changeAt true (addEntry (k.getLastD "") v) parent d.entries).map fun entries =>
      { d with
        entries
        pending := inner.map (fun path => { path, mark := .opened, deep := false }) ++ d.pending
        marks :=
          if isContainer v then
            { path := d.header ++ k, mark := .frozen, deep := true } :: d.marks
          else d.marks }

/-- The marks that were pending hold from here on. -/
def Draft.settle (d : Draft) : Draft :=
  { d with marks := d.pending ++ d.marks, pending := [] }

def Draft.openTable (d : Draft) (k : List String) : Option Draft :=
  if isMarked d.marks k .opened || isMarked d.marks k .frozen then none
  else
    (changeAt true some k d.entries).map fun entries =>
      { d with
        entries
        marks := { path := k, mark := .opened, deep := false } :: d.marks
        header := k }

def Draft.openMember (d : Draft) (k : List String) : Option Draft :=
  if isMarked d.marks k .frozen then none
  else
    (changeAt true (addMember (k.getLastD "")) k.dropLast d.entries).map fun entries =>
      { d with
        entries
        marks :=
          { path := k, mark := .opened, deep := false }
            :: d.marks.filter fun m => !startsWith k m.path
        header := k }

def orFail (d : Option Draft) : Scan Draft :=
  match d with
  | some d => return d
  | none => failure

def statement (d : Draft) : Scan Draft := do
  match ← peek with
  | some '[' =>
    let d := d.settle
    if ← accept "[[" then
      skipBlanks
      let k ← key
      expect "]]"
      orFail (d.openMember k)
    else
      expect "["
      skipBlanks
      let k ← key
      expect "]"
      orFail (d.openTable k)
  | some '#' => return d
  | _ =>
    let k ← key
    expect "="
    skipBlanks
    let v ← value ((← get).length + 1)
    orFail (d.add k v)

def statements : (fuel : Nat) → Draft → Scan Draft
  | 0, _ => failure
  | fuel + 1, d => do
    skipBlanks
    match ← peek with
    | none => return d
    | some '\n' =>
      expect "\n"
      statements fuel d
    | _ =>
      let d ← statement d
      skipBlanks
      skipComment
      match ← peek with
      | none => return d
      | _ =>
        expect "\n"
        statements fuel d

def read? (text : List Char) : Option Entries :=
  let start : Draft := { entries := [], marks := [], pending := [], header := [] }
  ((statements (text.length + 1) start).run (joinLineEnds text)).map (·.1.entries)

end TypeStub.Toml
