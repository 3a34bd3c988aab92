/-!
# Binary floating point magnitudes

A non-negative binary64 value is kept as an exact product `m · 2^e`, so that reading a decimal
and writing the shortest decimal that reads back are both exact integer arithmetic.
-/

namespace TypeStub.Number

/-- A non-negative binary64 value. In `finite m e`, which stands for `m · 2^e`, the mantissa is
below `2^53`, the exponent lies between `-1074` and `971`, and the mantissa is at least `2^52`
unless the exponent is the least one. -/
inductive Binary64 where
  | finite (mantissa : Nat) (exponent : Int)
  | infinite
  deriving DecidableEq, Repr, Inhabited

namespace Binary64

/-- The fraction `num / den · 2^(-e)` as a numerator and a denominator. -/
def scaleDown (num den : Nat) (e : Int) : Nat × Nat :=
  match e with
  | .ofNat n => (num, den * Nat.pow 2 n)
  | .negSucc n => (num * Nat.pow 2 (n + 1), den)

/-- The quotient of two numbers rounded to the nearest integer, a half to the even one. -/
def roundDiv (num den : Nat) : Nat :=
  let q := num / den
  let r := num % den
  if 2 * r > den || (2 * r == den && q % 2 == 1) then q + 1 else q

/-- A mantissa that rounding has carried to `2^53` moves to the next exponent. -/
def carry (m : Nat) (e : Int) : Binary64 :=
  let (m, e) := if m == Nat.pow 2 53 then (Nat.pow 2 52, e + 1) else (m, e)
  if e > 971 then .infinite else .finite m e

/-- The binary64 value nearest to `num / den`, a tie going to the even mantissa. -/
def ofRatio (num den : Nat) : Binary64 :=
  if num == 0 then .finite 0 (-1074)
  else
    let guess : Int := (Nat.log2 num : Int) - (Nat.log2 den : Int) - 53
    let (a, b) := scaleDown num den guess
    let e := max (-1074) (if a / b ≥ Nat.pow 2 53 then guess + 1 else guess)
    let (a, b) := scaleDown num den e
    carry (roundDiv a b) e

def decimalLength (n : Nat) : Nat :=
  if n == 0 then 0 else (Nat.toDigits 10 n).length

/-- The binary64 value nearest to `digits · 10^exponent`. -/
def ofDecimal (digits : Nat) (exponent : Int) : Binary64 :=
  let size : Int := (decimalLength digits : Int) + exponent
  if digits == 0 || size < -330 then .finite 0 (-1074)
  else if size > 320 then .infinite
  else
    match exponent with
    | .ofNat n => ofRatio (digits * Nat.pow 10 n) 1
    | .negSucc n => ofRatio digits (Nat.pow 10 (n + 1))

/-- Decimal digits without trailing zeros, and the position of the point: `digits` and `point`
stand for `0.d₁d₂… · 10^point`. -/
structure Decimal where
  digits : List Char
  point : Int
  deriving DecidableEq, Repr

/-- Whether `a / b` lies between `lo / d` and `hi / d`, the ends included when `closed`. -/
def within (a b lo hi d : Nat) (closed : Bool) : Bool :=
  if closed then lo * b ≤ a * d && a * d ≤ hi * b else lo * b < a * d && a * d < hi * b

/-- The position of the decimal point of `num / den`: the least `p` with `num / den < 10^p`,
searched upwards from `p` in at most `fuel` steps. -/
def pointFrom (num den : Nat) : Nat → Int → Int
  | 0, p => p
  | fuel + 1, p =>
    let below : Bool := match p with
      | .ofNat n => num < den * Nat.pow 10 n
      | .negSucc n => num * Nat.pow 10 (n + 1) < den
    if below then p else pointFrom num den fuel (p + 1)

/-- `n` without its trailing decimal zeros, as digits. -/
def significantDigits (n : Nat) : List Char :=
  ((Nat.toDigits 10 n).reverse.dropWhile (· == '0')).reverse

/-- The candidate with `count` digits for `num / den` that lies inside the rounding interval
`lo / d … hi / d`: of the two neighbours on that grid the nearer one, if it lies inside. -/
def shortestWith (num den lo hi d : Nat) (closed : Bool) (point : Int) (count : Nat) :
    Option Decimal :=
  let shift : Int := point - count
  -- the grid point `k` stands for `k · 10^shift`
  let (gNum, gDen) := match shift with
    | .ofNat n => (Nat.pow 10 n, 1)
    | .negSucc n => (1, Nat.pow 10 (n + 1))
  let down := (num * gDen) / (den * gNum)
  let rest := (num * gDen) % (den * gNum)
  let inside (k : Nat) : Bool := within (k * gNum) gDen lo hi d closed
  let up := down + 1
  let decimal (k : Nat) : Decimal :=
    { digits := significantDigits k
      point := point + ((Nat.toDigits 10 k).length - count : Int) }
  match down != 0 && inside down, inside up with
  | true, true =>
    let half := den * gNum
    if 2 * rest < half || (2 * rest == half && down % 2 == 0) then some (decimal down)
    else some (decimal up)
  | true, false => some (decimal down)
  | false, true => some (decimal up)
  | false, false => none

/-- The shortest decimal that reads back as the value `m · 2^e` with `m ≠ 0`; of several
shortest ones the nearest. -/
def shortest (m : Nat) (e : Int) : Decimal :=
  -- the value and the ends of its rounding interval over one denominator
  let lowStep := if m == Nat.pow 2 52 && e > -1074 then 1 else 2
  let (num, den) := scaleDown (4 * m) 4 (-e)
  let (lo, _) := scaleDown (4 * m - lowStep) 4 (-e)
  let (hi, _) := scaleDown (4 * m + 2) 4 (-e)
  let closed := m % 2 == 0
  let guess : Int := ((Nat.log2 num : Int) - (Nat.log2 den : Int)) * 30103 / 100000 - 1
  let point := pointFrom num den 8 guess
  ((List.range 17).findSome? fun i => shortestWith num den lo hi den closed point (i + 1)).getD
    { digits := ['0'], point := 1 }

/-- How decimals are written out. -/
structure DecimalFormat where
  /-- Text of infinity. -/
  infinity : String
  /-- Whether an integral value in positional notation keeps a `.0`. -/
  keepPoint : Bool

def exponentText (n : Int) : String :=
  let digits := Nat.toDigits 10 n.natAbs
  let padded := if digits.length < 2 then '0' :: digits else digits
  String.ofList ((if n < 0 then '-' else '+') :: padded)

/-- Positional notation for values from `0.0001` up to below `10^16`, otherwise one digit, the
rest after a point, and an exponent. -/
def Decimal.render (fmt : DecimalFormat) (d : Decimal) : String :=
  if d.point > 16 || d.point ≤ -4 then
    let head := d.digits.take 1
    let tail := d.digits.drop 1
    let fraction := if tail.isEmpty then [] else '.' :: tail
    String.ofList (head ++ fraction) ++ "e" ++ exponentText (d.point - 1)
  else if d.point ≤ 0 then
    String.ofList ("0.".toList ++ List.replicate d.point.natAbs '0' ++ d.digits)
  else
    let whole := d.point.toNat
    if d.digits.length ≤ whole then
      String.ofList (d.digits ++ List.replicate (whole - d.digits.length) '0')
        ++ (if fmt.keepPoint then ".0" else "")
    else
      String.ofList (d.digits.take whole ++ '.' :: d.digits.drop whole)

/-- The text of a value: the fewest digits that read back. -/
def render (fmt : DecimalFormat) : Binary64 → String
  | .infinite => fmt.infinity
  | .finite m e =>
    if m == 0 then (if fmt.keepPoint then "0.0" else "0")
    else (shortest m e).render fmt

end Binary64

end TypeStub.Number
