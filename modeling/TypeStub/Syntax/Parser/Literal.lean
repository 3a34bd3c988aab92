import TypeStub.Syntax.Parser.Core
import TypeStub.Text.CharacterName
/-!
# String literals

The value of adjacent string literals: escapes are decoded, and the braces of formatted strings
are parsed.
-/

namespace TypeStub.Syntax

open TypeStub.Text

/-! ## Escapes -/

/-- The value of exactly `count` hexadecimal digits at the front. -/
def hexEscape? (count : Nat) (cs : List Char) : Option Nat :=
  let digits := cs.take count
  if digits.length == count && digits.all isHexDigit then some (ofDigits 16 digits) else none

def octalDigits (cs : List Char) : List Char :=
  (cs.take 3).takeWhile fun c => '0' ≤ c && c ≤ '7'

def controlEscape? : Char → Option Nat
  | 'a' => some 7
  | 'b' => some 8
  | 't' => some 9
  | 'n' => some 10
  | 'v' => some 11
  | 'f' => some 12
  | 'r' => some 13
  | _ => none

/-- The escape behind a backslash that texts and bytes have in common: the values it stands for
and the number of characters it takes. -/
def commonEscape? : List Char → Option (Option (List Nat × Nat))
  | [] => some (some ([92], 0))
  | '\n' :: _ => some (some ([], 1))
  | c :: rest =>
    if c == '\\' || c == '\'' || c == '"' then some (some ([c.toNat], 1))
    else if c == 'x' then some ((hexEscape? 2 rest).map fun n => ([n], 3))
    else
      match controlEscape? c with
      | some n => some (some ([n], 1))
      | none =>
        match octalDigits (c :: rest) with
        | [] => none
        | digits => some (some ([ofDigits 8 digits], digits.length))

def textEscape? (cs : List Char) : Option (List Nat × Nat) :=
  match commonEscape? cs with
  | some result => result
  | none =>
    match cs with
    | 'u' :: rest => (hexEscape? 4 rest).map fun n => ([n], 5)
    | 'U' :: rest =>
      match hexEscape? 8 rest with
      | some n => if n ≤ 0x10FFFF then some ([n], 9) else none
      | none => none
    | 'N' :: '\x7b' :: rest =>
      let label := rest.takeWhile (· != '\x7d')
      if label.length < rest.length then
        (characterNamed? label).map fun c => ([c.toNat], label.length + 3)
      else none
    | 'N' :: _ => none
    | c :: _ => some ([92, c.toNat], 1)
    | [] => none

/-- The escape behind a backslash in bytes; octal escapes are taken modulo 256. -/
def bytesEscape? (cs : List Char) : Option (List Nat × Nat) :=
  match commonEscape? cs with
  | some result => result.map fun (ns, size) => (ns.map (· % 256), size)
  | none =>
    match cs with
    | c :: _ => some ([92, c.toNat], 1)
    | [] => none

/-- Decodes escapes; `skip` characters belong to an escape that has been decoded already. -/
def decodeEscapes (escape? : List Char → Option (List Nat × Nat)) :
    (skip : Nat) → List Char → Option (List Nat)
  | _, [] => some []
  | skip + 1, _ :: rest => decodeEscapes escape? skip rest
  | 0, c :: rest =>
    if c == '\\' then
      match escape? rest with
      | none => none
      | some (values, size) => (decodeEscapes escape? size rest).map (values ++ ·)
    else (decodeEscapes escape? 0 rest).map (c.toNat :: ·)

def decodeText (raw : Bool) (cs : List Char) : Option (List Nat) :=
  if raw then some (cs.map (·.toNat)) else decodeEscapes textEscape? 0 cs

def decodeBytes (raw : Bool) (cs : List Char) : Option (List Nat) :=
  if cs.any (·.toNat ≥ 128) then none
  else if raw then some (cs.map (·.toNat)) else decodeEscapes bytesEscape? 0 cs

/-! ## Formatted strings -/

/-- A place inside a string token: the characters before it, nearest first, and those left. -/
structure Inside where
  before : List Char
  rest : List Char

/-- The place behind `taken`, where `rest` is left. -/
def Inside.past (i : Inside) (taken rest : List Char) : Inside :=
  { before := taken.reverse ++ i.before, rest }

/-- What comes behind a literal part: more literal text behind a doubled brace, the brace that
opens an expression, or the end of the text or of a format specification. -/
inductive AfterLiteral where
  | doubled
  | brace
  | close
  deriving DecidableEq

/-- The literal text up to the next brace. At the top level a doubled brace is a brace of the
text, and a single closing one is an error. `skip` characters are taken unseen. -/
def literalPart (raw top : Bool) :
    (skip : Nat) → List Char → Option (List Char × AfterLiteral × List Char)
  | _, [] => some ([], .close, [])
  | skip + 1, c :: rest =>
    (literalPart raw top skip rest).map fun (t, after, r) => (c :: t, after, r)
  | 0, c :: rest =>
    if c == '\x7b' || c == '\x7d' then
      if top then
        match rest with
        | d :: more =>
          if d == c then some ([c], .doubled, more)
          else if c == '\x7d' then none
          else some ([], .brace, c :: rest)
        | [] => if c == '\x7d' then none else some ([], .brace, c :: rest)
      else some ([], if c == '\x7b' then .brace else .close, c :: rest)
    else
      let skip :=
        if raw || c != '\\' then 0
        else
          match rest with
          | 'N' :: '\x7b' :: name =>
            2 + min name.length ((name.takeWhile (· != '\x7d')).length + 1)
          | 'N' :: _ => 2
          | d :: _ => if d == '\x7b' || d == '\x7d' then 0 else 1
          | [] => 0
      (literalPart raw top skip rest).map fun (t, after, r) => (c :: t, after, r)

/-- The text of an expression between braces, up to the character that ends it. `stack` holds the
brackets that are open, `quote` the quote of the string that is open and whether it is tripled,
and `skip` characters are taken unseen. Backslashes and comments are errors. -/
def expressionPart (stack : List Char) (quote : Option (Char × Bool)) (skip : Nat) :
    List Char → Option (List Char × List Char)
  | [] => none
  | c :: rest =>
    let go (stack : List Char) (quote : Option (Char × Bool)) (skip : Nat) :=
      (expressionPart stack quote skip rest).map fun (t, r) => (c :: t, r)
    let tripled := match rest with
      | a :: b :: _ => a == c && b == c
      | _ => false
    if skip > 0 then go stack quote (skip - 1)
    else if c == '\\' then none
    else
      match quote with
      | some (q, triple) =>
        if c != q then go stack quote 0
        else if !triple then go stack none 0
        else if tripled then go stack none 2
        else go stack quote 0
      | none =>
        if c == '\'' || c == '"' then
          if tripled then go stack (some (c, true)) 2 else go stack (some (c, false)) 0
        else if c == '(' || c == '[' || c == '\x7b' then
          if stack.length ≥ 200 then none else go (c :: stack) none 0
        else if c == '#' then none
        else if stack.isEmpty && ['!', ':', '\x7d', '=', '>', '<'].contains c then
          if ['!', '=', '<', '>'].contains c && rest.head? == some '=' then go stack none 1
          else if c == '>' || c == '<' then go stack none 0
          else some ([], c :: rest)
        else if c == ')' || c == ']' || c == '\x7d' then
          let opener := if c == ')' then '(' else if c == ']' then '[' else '\x7b'
          match stack with
          | b :: outer => if b == opener then go outer none 0 else none
          | [] => none
        else go stack none 0

/-- Where the brace at a place stands in the source. A brace that only blanks divide from a line
end counts as standing at the start of its line, or of its token on the first line. -/
def Inside.bracePlace (i : Inside) (token : Span) (expression : List Char) : Place :=
  let lines := i.before.count '\n'
  let lineBreak := match expression.dropWhile fun c => c == ' ' || c == '\t' || c == '\x0c' with
    | '\n' :: _ => true
    | _ => false
  let bytes := (i.before.takeWhile (· != '\n')).foldr (fun c n => c.utf8Size + n) 0
  let col := if lineBreak then 0 else bytes
  { line := token.line + lines, col := if lines == 0 then token.col + col else col }

/-- A piece of a formatted string. -/
inductive Piece where
  | text (points : List Nat)
  | expr (value : Expr)

/-- The spans of a formatted string: of all adjacent literals, and of the one being read. -/
structure LiteralSpans where
  whole : Span
  token : Span

/-- Puts pieces together: adjacent texts become one constant, empty ones disappear. A text behind
the last expression gets the span `final`, the others the span `inner`. -/
def assemble (inner final : Span) (marked : Bool) : List Nat → List Piece → List Expr
  | text, [] => if text.isEmpty then [] else [.constant final (.str text marked)]
  | text, .text more :: rest => assemble inner final marked (text ++ more) rest
  | text, .expr e :: rest =>
    (if text.isEmpty then [] else [.constant inner (.str text marked)])
      ++ e :: assemble inner final marked [] rest

/-- What stands between the expression and its closing brace: the text to show, the conversion,
and the rest. -/
def selfDocumented (d : Dialect) (expression : List Char) (i : Inside) :
    Option (Option (List Char) × Inside) :=
  match i.rest with
  | '=' :: rest =>
    if d.minor < 8 then none
    else
      let isBlank := fun (c : Char) => c == ' ' || (9 ≤ c.toNat && c.toNat ≤ 13)
      let blanks := rest.takeWhile isBlank
      let after := rest.dropWhile isBlank
      if after.isEmpty then none
      else some (some (expression ++ '=' :: blanks), i.past ('=' :: blanks) after)
  | _ => some (none, i)

def conversionPart (i : Inside) : Option (Option Char × Inside) :=
  match i.rest with
  | '!' :: c :: rest =>
    if c == 's' || c == 'r' || c == 'a' then some (some c, i.past ['!', c] rest) else none
  | '!' :: [] => none
  | _ => some (none, i)

/-- The pieces of a formatted string from a place on, up to its end, or up to the closing brace
inside a format specification. `depth` is how deep expressions may still be nested, and `fuel`
bounds the number of pieces. -/
def formattedPieces (r : Rules) (raw top marked : Bool) (spans : LiteralSpans) :
    (depth fuel : Nat) → Inside → Option (List Piece × Inside)
  | _, 0, _ => none
  | depth, fuel + 1, i => do
    let (literal, after, rest) ← literalPart raw top 0 i.rest
    let text ← decodeText raw literal
    let taken := i.rest.take (i.rest.length - rest.length)
    let i := i.past taken rest
    match after with
    | .doubled =>
      let (pieces, i) ← formattedPieces r raw top marked spans depth fuel i
      return (.text text :: pieces, i)
    | .close => return ([.text text], i)
    | .brace =>
      match depth with
      | 0 => none
      | depth + 1 =>
        let inner := i.rest.drop 1
        let (expression, rest) ← expressionPart [] none 0 inner
        if expression.all fun c => c == ' ' || c == '\t' || c == '\n' || c == '\x0c' then none
        let value ← r.embedded expression (i.bracePlace spans.token inner)
        let i := i.past ('\x7b' :: expression) rest
        let (shown, i) ← selfDocumented r.dialect expression i
        let (conversion, i) ← conversionPart i
        let (spec, i) ← match i.rest with
          | ':' :: rest => do
            if rest.isEmpty then none
            let (pieces, i) ←
              formattedPieces r raw false marked spans depth fuel (i.past [':'] rest)
            let parts := assemble spans.whole spans.token marked [] pieces
            some (some (.joined spans.token parts), i)
          | _ => some (none, i)
        match i.rest with
        | '\x7d' :: rest =>
          let conversion :=
            if shown.isSome && spec.isNone && conversion.isNone then some 'r' else conversion
          let shownPiece := shown.toList.map fun t => Piece.text (t.map (·.toNat))
          let piece := Piece.expr (.formatted spans.whole value conversion spec)
          let (pieces, i) ←
            formattedPieces r raw top marked spans (depth + 1) fuel (i.past ['\x7d'] rest)
          return (.text text :: shownPiece ++ piece :: pieces, i)
        | _ => none

def tokenPieces (r : Rules) (marked : Bool) (whole : Span) (t : StringToken) (span : Span) :
    Option (List Piece) :=
  if t.isFormatted then
    if r.dialect.minor < 6 then none
    else
      let opening := t.letters ++ List.replicate t.quotes '"'
      let start : Inside := { before := opening.reverse, rest := t.body }
      match formattedPieces r t.isRaw true marked { whole, token := span } 2
          (t.body.length + 2) start with
      | some (pieces, i) => if i.rest.isEmpty then some pieces else none
      | none => none
  else (decodeText t.isRaw t.body).map fun points => [.text points]

/-- The value of adjacent string literals: all bytes, all text, or a formatted string. -/
def concatLiterals (r : Rules) (whole : Span) (tokens : List (StringToken × Span)) :
    Option Expr :=
  match tokens with
  | [] => none
  | (first, _) :: _ =>
    if tokens.all (·.1.isBytes) then do
      let parts ← tokens.mapM fun (t, _) => decodeBytes t.isRaw t.body
      some (.constant whole (.bytes parts.flatten))
    else if tokens.any (·.1.isBytes) then none
    else do
      let marked := first.letters.head? == some 'u'
      let pieces ← tokens.mapM fun (t, span) => tokenPieces r marked whole t span
      if tokens.any (·.1.isFormatted) then
        some (.joined whole (assemble whole whole marked [] pieces.flatten))
      else
        let points := pieces.flatten.flatMap fun
          | .text points => points
          | .expr _ => []
        some (.constant whole (.str points marked))

def stringLiterals (r : Rules) : Parse Expr := do
  let start ← Parse.here
  let tokens ← Parse.many do
    match ← Parse.peek with
    | .string literal =>
      let t ← Parse.next
      return some (literal, t.span)
    | _ => return none
  let span ← Parse.spanFrom start
  match concatLiterals r span tokens with
  | some e => return e
  | none => failure

end TypeStub.Syntax
