import TypeStub.Syntax.Lexer.Number
import TypeStub.Text.Compose
/-!
# The lexer

Source text to tokens. Line ends are brought to one form first. The lexer is a state machine: each
step takes at least one character or ends the stream, so a number of steps above the length of the
text is always enough.
-/

namespace TypeStub.Syntax

open TypeStub.Text

/-- Brings `\r\n` and `\r` to `\n`. With `closeLine`, a text whose last line is open is closed;
a line end of two characters at the very end counts as open. -/
def unifyLines (closeLine : Bool) : List Char → List Char
  | [] => if closeLine then ['\n'] else []
  | ['\n'] => ['\n']
  | ['\r'] => ['\n']
  | ['\r', '\n'] => if closeLine then ['\n', '\n'] else ['\n']
  | '\r' :: '\n' :: rest => '\n' :: unifyLines closeLine rest
  | '\r' :: rest => '\n' :: unifyLines closeLine rest
  | c :: rest => c :: unifyLines closeLine rest

/-- What the lexer is asked to do besides splitting the text: whether comments that give a type
become tokens, whether underscores may group digits, and where the first character stands in the
whole source. -/
structure LexOptions where
  typeComments : Bool
  digitGroups : Bool
  line : Nat
  col : Nat

/-- A place in the text: what is left, and line (from one) and byte column of its first
character. -/
structure Cursor where
  rest : List Char
  line : Nat
  col : Nat

/-- The cursor behind `taken`, where `rest` is left. -/
def Cursor.past (c : Cursor) (taken rest : List Char) : Cursor :=
  let (line, col) := taken.foldl
    (fun (line, col) ch => if ch == '\n' then (line + 1, 0) else (line, col + ch.utf8Size))
    (c.line, c.col)
  { rest, line, col }

/-- The state between two tokens: the place, whether a line starts there, the brackets that are
open (innermost first), and the indentations that are open (innermost first), each measured with
tab stops every eight columns and again with tabs as single columns. -/
structure LexState where
  cursor : Cursor
  atLineStart : Bool
  brackets : List Char
  indents : List (Nat × Nat)

/-- A step adds tokens and goes on, or adds the last token. -/
inductive LexStep where
  | more (tokens : List Token) (state : LexState)
  | done (tokens : List Token)

/-- The token between two places. On the first line columns count from the place of the first
character in the whole source. -/
def tokenAt (o : LexOptions) (kind : TokenKind) (start stop : Cursor) : Token :=
  let shift := if stop.line == 1 then o.col else 0
  { kind
    span :=
      { line := o.line + start.line - 1
        col := start.col + shift
        endLine := o.line + stop.line - 1
        endCol := stop.col + shift } }

def isLineBlank (c : Char) : Bool :=
  c == ' ' || c == '\t' || c == '\x0c'

/-- The indentation of a line: its width with tab stops every eight columns, its width with tabs
as single columns, and the place behind it. A form feed starts the count again. If a backslash
continues the line, the width in front of the first backslash counts, unless it is zero. -/
def measureIndent (cursor : Cursor) (col alt fixed : Nat) :
    List Char → Option (Nat × Nat × Cursor)
  | ' ' :: rest => measureIndent (cursor.past [' '] rest) (col + 1) (alt + 1) fixed rest
  | '\t' :: rest =>
    measureIndent (cursor.past ['\t'] rest) ((col / 8 + 1) * 8) (alt + 1) fixed rest
  | '\x0c' :: rest => measureIndent (cursor.past ['\x0c'] rest) 0 0 fixed rest
  | '\\' :: '\n' :: c :: rest =>
    measureIndent (cursor.past ['\\', '\n'] (c :: rest)) col alt
      (if fixed == 0 then col else fixed) (c :: rest)
  | '\\' :: _ => none
  | _ => if fixed == 0 then some (col, alt, cursor) else some (fixed, fixed, cursor)

def maxIndents : Nat := 100

def maxBrackets : Nat := 200

/-- Closes the blocks that are indented deeper than a line; one of the remaining ones has to have
exactly its indentation. -/
def closeBlocks (col alt : Nat) : List (Nat × Nat) → Option (Nat × List (Nat × Nat))
  | [] => none
  | (c, a) :: outer =>
    if col < c then (closeBlocks col alt outer).map fun (n, stack) => (n + 1, stack)
    else if col == c && alt == a then some (0, (c, a) :: outer)
    else none

def indentTokens (o : LexOptions) (place : Cursor) (col alt : Nat) (stack : List (Nat × Nat)) :
    Option (List Token × List (Nat × Nat)) :=
  match stack with
  | [] => none
  | (c, a) :: _ =>
    if col == c then if alt == a then some ([], stack) else none
    else if col > c then
      if alt ≤ a || stack.length ≥ maxIndents then none
      else some ([tokenAt o .indent place place], (col, alt) :: stack)
    else
      (closeBlocks col alt stack).map fun (n, open') =>
        (List.replicate n (tokenAt o .dedent place place), open')

/-- The text behind `# type:` if the comment starts so; blanks around the word and the sharp sign
are free. -/
def typeCommentText? (comment : List Char) : Option (List Char) :=
  match comment with
  | '#' :: rest =>
    let blank := fun c => c == ' ' || c == '\t'
    match dropPrefix? "type:".toList (rest.dropWhile blank) with
    | some after => some (after.dropWhile blank)
    | none => none
  | _ => none

/-- Whether the text of a type comment asks to ignore the line: `ignore`, and no letter or digit
behind it. -/
def isTypeIgnore (text : List Char) : Bool :=
  match dropPrefix? "ignore".toList text with
  | some (c :: _) => c.toNat < 128 && !c.isAlphanum
  | some [] => true
  | none => false

/-- The comment at a place, up to the end of its line. When comments give types, such a comment is
a token. -/
def takeComment (o : LexOptions) (cursor : Cursor) : Option TokenKind × Cursor :=
  let comment := cursor.rest.takeWhile (· != '\n')
  let rest := cursor.rest.dropWhile (· != '\n')
  let after := cursor.past comment rest
  -- the line has to be closed for its comment to count
  match (if o.typeComments then typeCommentText? comment else none) with
  | some text =>
    if isTypeIgnore text then (some .typeIgnore, after)
    else (some (.typeComment (String.ofList text)), after)
  | none => (none, after)

/-- A line with nothing but blanks and a comment: no line end and no change of indentation. A
comment that gives a type keeps the line end behind it. -/
def blankLine (o : LexOptions) (s : LexState) (place : Cursor) : LexStep :=
  let (kind, after) := takeComment o place
  let next : LexState := match after.rest with
    | '\n' :: rest => { s with cursor := after.past ['\n'] rest, atLineStart := true }
    | _ => { s with cursor := after, atLineStart := false }
  match kind with
  | some (.typeComment text) =>
    .more [tokenAt o (.typeComment text) place after]
      { s with cursor := after, atLineStart := false }
  | some kind => .more [tokenAt o kind place after] next
  | none => .more [] next

def lexLineStart (o : LexOptions) (s : LexState) : Option LexStep := do
  let (col, alt, place) ← measureIndent s.cursor 0 0 0 s.cursor.rest
  let inside : LexState := { s with cursor := place, atLineStart := false }
  match place.rest with
  | '#' :: _ | '\n' :: _ => some (blankLine o s place)
  | _ =>
    if s.brackets.isEmpty then
      let (tokens, indents) ← indentTokens o place col alt s.indents
      some (.more tokens { inside with indents })
    else some (.more [] inside)

/-- The body of a string literal up to its closing quotes. A backslash takes the next character
with it; only a literal in three quotes runs over line ends. -/
def stringBody (quote : Char) (triple : Bool) : List Char → Option (List Char × List Char)
  | [] => none
  | '\\' :: c :: rest => (stringBody quote triple rest).map fun (b, r) => ('\\' :: c :: b, r)
  | c :: rest =>
    if c == quote then
      if triple then
        match rest with
        | a :: b :: after =>
          if a == quote && b == quote then some ([], after)
          else (stringBody quote triple rest).map fun (body, r) => (c :: body, r)
        | _ => none
      else some ([], rest)
    else if c == '\n' && !triple then none
    else if c == '\\' then none
    else (stringBody quote triple rest).map fun (b, r) => (c :: b, r)

/-- The combinations of letters that may stand before a quote, in lower case. -/
def stringLetters : List String :=
  ["", "b", "r", "u", "f", "br", "rb", "fr", "rf"]

/-- The string literal at the front of a text, if one starts there; the inner option is empty if
it does not end. -/
def scanString (cs : List Char) : Option (Option (StringToken × List Char)) :=
  let letters := cs.takeWhile Char.isAlpha
  match cs.dropWhile Char.isAlpha with
  | q :: rest =>
    if (q == '\'' || q == '"') &&
        stringLetters.contains (String.ofList (letters.map Char.toLower)) then
      match rest with
      | a :: b :: after =>
        if a == q && b == q then
          some ((stringBody q true after).map fun (body, r) =>
            ({ letters, quotes := 3, body }, r))
        else some ((stringBody q false rest).map fun (body, r) =>
            ({ letters, quotes := 1, body }, r))
      | _ => some ((stringBody q false rest).map fun (body, r) =>
            ({ letters, quotes := 1, body }, r))
    else none
  | [] => none

def scanName (cs : List Char) : Option (TokenKind × List Char × List Char) :=
  let text := cs.takeWhile isNameChar
  let rest := cs.dropWhile isNameChar
  let plain := String.ofList text
  if keywords.contains plain then some (.keyword plain, text, rest)
  else if isIdentifier text then some (.name (String.ofList (normalForm text)), text, rest)
  else none

def scanOperator (cs : List Char) : Option (String × List Char) :=
  operators.findSome? fun op => (dropPrefix? op.toList cs).map fun rest => (op, rest)

def openerOf : Char → Option Char
  | ')' => some '('
  | ']' => some '['
  | '\x7d' => some '\x7b'
  | _ => none

def bracketsAfter (op : String) (brackets : List Char) : Option (List Char) :=
  match op.toList with
  | [c] =>
    if c == '(' || c == '[' || c == '\x7b' then
      if brackets.length ≥ maxBrackets then none else some (c :: brackets)
    else
      match openerOf c with
      | none => some brackets
      | some opener =>
        match brackets with
        | b :: outer => if b == opener then some outer else none
        | [] => none
  | _ => some brackets

def lexToken (o : LexOptions) (s : LexState) (place : Cursor) : Option LexStep :=
  let one (kind : TokenKind) (taken rest : List Char) : LexStep :=
    let after := place.past taken rest
    .more [tokenAt o kind place after] { s with cursor := after }
  match scanString place.rest with
  | some none => none
  | some (some (literal, rest)) =>
    let taken := place.rest.take (place.rest.length - rest.length)
    some (one (.string literal) taken rest)
  | none =>
    match place.rest with
    | [] => none
    | c :: more =>
      if isAsciiNameStart c || c.toNat ≥ 128 then
        (scanName place.rest).map fun (kind, taken, rest) => one kind taken rest
      else if isDigit c || (c == '.' && (more.head?.any isDigit)) then
        match scanNumber place.rest with
        | some n =>
          if n.text.contains '_' && !o.digitGroups then none
          else some (one (.number n.value) n.text n.rest)
        | none => none
      else do
        let (op, rest) ← scanOperator place.rest
        let brackets ← bracketsAfter op s.brackets
        let after := place.past op.toList rest
        some (.more [tokenAt o (.op op) place after] { s with cursor := after, brackets })

def lexInLine (o : LexOptions) (s : LexState) : Option LexStep :=
  let blanks := s.cursor.rest.takeWhile isLineBlank
  let place := s.cursor.past blanks (s.cursor.rest.dropWhile isLineBlank)
  match place.rest with
  | [] => if s.brackets.isEmpty then some (.done [tokenAt o .endMarker place place]) else none
  | '#' :: _ =>
    let (kind, after) := takeComment o place
    some (.more (kind.toList.map fun k => tokenAt o k place after) { s with cursor := after })
  | '\n' :: rest =>
    let after := place.past ['\n'] rest
    let next : LexState := { s with cursor := after, atLineStart := true }
    if s.brackets.isEmpty then some (.more [tokenAt o .newline place place] next)
    else some (.more [] next)
  | '\\' :: rest =>
    match rest with
    | '\n' :: c :: after =>
      some (.more [] { s with cursor := place.past ['\\', '\n'] (c :: after) })
    | _ => none
  | _ => lexToken o s place

def lexStep (o : LexOptions) (s : LexState) : Option LexStep :=
  if s.atLineStart then lexLineStart o s else lexInLine o s

/-- The tokens from a state on, in at most `fuel` steps. -/
def lexFrom (o : LexOptions) : (fuel : Nat) → LexState → Option (List Token)
  | 0, _ => none
  | fuel + 1, s =>
    match lexStep o s with
    | none => none
    | some (.done tokens) => some tokens
    | some (.more tokens next) => (lexFrom o fuel next).map (tokens ++ ·)

def lex (o : LexOptions) (text : List Char) : Option (List Token) :=
  lexFrom o (2 * text.length + 4)
    { cursor := { rest := text, line := 1, col := 0 }
      atLineStart := true
      brackets := []
      indents := [(0, 0)] }

/-! ## Words that were names once

Before version 3.7, `async` and `await` are names outside asynchronous functions. -/

/-- Where the pass over the tokens is: the number of open blocks and brackets, and for the
asynchronous function that is being read its block depth and whether its first line has ended. -/
structure AsyncState where
  blocks : Nat
  brackets : Nat
  inside : Option (Nat × Bool)

def AsyncState.leaves (s : AsyncState) (kind : TokenKind) : Bool :=
  match s.inside, kind with
  | _, .newline | _, .indent | _, .dedent | _, .typeComment _ | _, .typeIgnore => false
  | some (depth, true), _ => s.brackets == 0 && depth ≥ s.blocks
  | _, _ => false

/-- Makes names of the words `async` and `await` that are no keywords where they stand. -/
def demoteAsync (s : AsyncState) : List Token → List Token
  | [] => []
  | t :: rest =>
    let s := if s.leaves t.kind then { s with inside := none } else s
    match t.kind with
    | .indent => t :: demoteAsync { s with blocks := s.blocks + 1 } rest
    | .dedent => t :: demoteAsync { s with blocks := s.blocks - 1 } rest
    | .newline => t :: demoteAsync { s with inside := s.inside.map fun (d, _) => (d, true) } rest
    | .op text =>
      let brackets :=
        if ["(", "[", "\x7b"].contains text then s.brackets + 1
        else if [")", "]", "\x7d"].contains text then s.brackets - 1
        else s.brackets
      t :: demoteAsync { s with brackets } rest
    | .keyword text =>
      if s.inside.isSome then t :: demoteAsync s rest
      else if text == "await" then { t with kind := .name text } :: demoteAsync s rest
      else if text == "async" then
        if (rest.head?.map (·.kind)) == some (.keyword "def") then
          t :: demoteAsync { s with inside := some (s.blocks, false) } rest
        else { t with kind := .name text } :: demoteAsync s rest
      else t :: demoteAsync s rest
    | _ => t :: demoteAsync s rest

end TypeStub.Syntax
