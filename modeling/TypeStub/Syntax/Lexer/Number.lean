import TypeStub.Syntax.Token
import TypeStub.Text.Identifier
/-!
# Numeric literals

Reading a number off the front of a text. A number must not run into a name, except that one of
the words that can follow an operand may stand directly behind it, as in `1if x else y`.
-/

namespace TypeStub.Syntax

open TypeStub.Number TypeStub.Text

/-- Takes digits that may be divided by single underscores; an underscore that no digit follows is
an error. -/
def digitRun (digit : Char → Bool) : List Char → Option (List Char × List Char)
  | '_' :: c :: rest =>
    if digit c then (digitRun digit rest).map fun (ds, r) => ('_' :: c :: ds, r) else none
  | '_' :: [] => none
  | c :: rest =>
    if digit c then (digitRun digit rest).map fun (ds, r) => (c :: ds, r)
    else some ([], c :: rest)
  | [] => some ([], [])

def digitRunFrom (digit : Char → Bool) : List Char → Option (List Char × List Char)
  | c :: rest => if digit c then digitRun digit (c :: rest) else none
  | [] => none

/-- Whether the character can be part of a name as far as scanning is concerned. -/
def isNameChar (c : Char) : Bool :=
  isAsciiNameStart c || isDigit c || c.toNat ≥ 128

def wordsAfterNumber : List String :=
  ["and", "else", "for", "if", "in", "is", "or", "not"]

def numberMayEnd (rest : List Char) : Bool :=
  match rest with
  | [] => true
  | c :: _ => !isNameChar c || wordsAfterNumber.any fun w => startsWith w.toList rest

/-- A number that has been scanned: its value, the characters it was written with, and what
follows. -/
structure ScannedNumber where
  value : Constant
  text : List Char
  rest : List Char

def maxIntDigits : Nat := 4300

def plainDigits (run : List Char) : List Char :=
  run.filter (· != '_')

/-- An integer in another base: the letter after the zero has been taken. -/
def scanBased (lead : List Char) (base : Nat) (digit : Char → Bool) (cs : List Char) :
    Option ScannedNumber := do
  let afterMark := match cs with
    | '_' :: r => r
    | r => r
  let (ds, rest) ← digitRunFrom digit afterMark
  match rest with
  | c :: _ => if isDigit c then none else pure ()
  | [] => pure ()
  if numberMayEnd rest then
    let mark := if cs.head? == some '_' then ['_'] else []
    some { value := .int (ofDigits base (plainDigits ds)), text := lead ++ mark ++ ds, rest }
  else none

/-- The exponent behind a decimal, if there is one. The result holds its value, its text and the
rest. An `e` that no digit follows is no exponent, and then has to start a word. -/
def scanExponent (cs : List Char) : Option (Option Int × List Char × List Char) :=
  match cs with
  | e :: s :: rest =>
    if e == 'e' || e == 'E' then
      if s == '+' || s == '-' then do
        let (ds, r) ← digitRunFrom isDigit rest
        let n : Int := ofDigits 10 (plainDigits ds)
        some (some (if s == '-' then -n else n), e :: s :: ds, r)
      else if isDigit s then do
        let (ds, r) ← digitRunFrom isDigit (s :: rest)
        some (some (ofDigits 10 (plainDigits ds) : Int), e :: ds, r)
      else some (none, [], cs)
    else some (none, [], cs)
  | _ => some (none, [], cs)

/-- The fraction behind the integer part of a decimal: whether there is a point, the digits behind
it, and the rest. -/
def scanFraction : List Char → Option (Bool × List Char × List Char)
  | '.' :: c :: rest =>
    if isDigit c then (digitRunFrom isDigit (c :: rest)).map fun (ds, r) => (true, ds, r)
    else some (true, [], c :: rest)
  | '.' :: [] => some (true, [], [])
  | rest => some (false, [], rest)

/-- What can follow the integer part of a decimal number: a fraction, an exponent, the mark of an
imaginary number, or nothing. Without any of these the number is an integer. -/
def scanDecimalTail (whole : List Char) (cs : List Char) : Option ScannedNumber := do
  let (hasPoint, fraction, afterFraction) ← scanFraction cs
  let (exponent, exponentText, afterExponent) ← scanExponent afterFraction
  let text := whole ++ (if hasPoint then '.' :: fraction else []) ++ exponentText
  let digits := plainDigits whole ++ plainDigits fraction
  let value := Binary64.ofDecimal (ofDigits 10 digits)
    (exponent.getD 0 - ((plainDigits fraction).length : Int))
  match afterExponent with
  | c :: rest =>
    if c == 'j' || c == 'J' then
      if numberMayEnd rest then
        return { value := .imaginary value, text := text ++ [c], rest }
      else none
    else pure ()
  | [] => pure ()
  if numberMayEnd afterExponent then
    if hasPoint || exponent.isSome then
      return { value := .float value, text, rest := afterExponent }
    else
      -- an integer: no leading zeros unless it is zero, and not too many digits
      if whole.head? == some '0' && digits.any (· != '0') then none
      else if digits.length > maxIntDigits then none
      else return { value := .int (ofDigits 10 digits), text, rest := afterExponent }
  else none

/-- Reads the number at the front of a text that starts with a digit, or with a point and a
digit. -/
def scanNumber (cs : List Char) : Option ScannedNumber :=
  match cs with
  | '0' :: c :: rest =>
    if c == 'x' || c == 'X' then scanBased ['0', c] 16 isHexDigit rest
    else if c == 'o' || c == 'O' then scanBased ['0', c] 8 (fun d => '0' ≤ d && d ≤ '7') rest
    else if c == 'b' || c == 'B' then scanBased ['0', c] 2 (fun d => d == '0' || d == '1') rest
    else do
      let (whole, r) ← digitRun isDigit cs
      scanDecimalTail whole r
  | '.' :: _ => scanDecimalTail [] cs
  | _ => do
    let (whole, r) ← digitRun isDigit cs
    scanDecimalTail whole r

end TypeStub.Syntax
