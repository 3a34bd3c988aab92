import TypeStub.Text.Decimal
import TypeStub.Text.Space
/-!
# Integers in free text

An integer may stand between blanks, may have a sign, and may have single underscores between its
digits. The digits may be those of any script.
-/

namespace TypeStub.Text

/-- Why a text is no integer. -/
inductive IntegerError
  | malformed
  /-- More digits than are read. -/
  | tooLong (digits : Nat)
  deriving DecidableEq, Repr

def maxDigits : Nat := 4300

def isIntegerBlank (c : Char) : Bool :=
  isSpace c.toNat && !(28 ≤ c.toNat && c.toNat ≤ 31)

def digitRun? : List Char → Option (List Nat)
  | [] => none
  | [c] => (digitValue? c.toNat).map fun d => [d]
  | c :: '_' :: rest => do
    let d ← digitValue? c.toNat
    let ds ← digitRun? rest
    return d :: ds
  | c :: rest => do
    let d ← digitValue? c.toNat
    let ds ← digitRun? rest
    return d :: ds

def splitSign : List Char → Bool × List Char
  | '-' :: rest => (true, rest)
  | '+' :: rest => (false, rest)
  | text => (false, text)

def readInteger (text : List Char) : Except IntegerError Int :=
  let bare := dropTrailing isIntegerBlank (text.dropWhile isIntegerBlank)
  let (negative, digits) := splitSign bare
  match digitRun? digits with
  | none => .error .malformed
  | some ds =>
    if ds.length > maxDigits then .error (.tooLong ds.length)
    else
      let value : Nat := ds.foldl (fun n d => n * 10 + d) 0
      .ok (if negative then -(value : Int) else value)

end TypeStub.Text
