import TypeStub.Syntax.Tree
/-!
# Tokens

What the lexer hands to the parser. Line structure is part of the stream: a logical line ends with
`newline`, and a change of indentation is an `indent` or one `dedent` per closed block.
-/

namespace TypeStub.Syntax

/-- A string literal as written: the letters before the quote, the number of quote characters on
either side (one or three), and the characters in between, escapes included. -/
structure StringToken where
  letters : List Char
  quotes : Nat
  body : List Char
  deriving DecidableEq, Repr, Inhabited

/-- Whether one of the letters before the quote is `c` in either case. -/
def StringToken.has (t : StringToken) (c : Char) : Bool :=
  t.letters.any fun l => l.toLower == c

def StringToken.isRaw (t : StringToken) : Bool := t.has 'r'

def StringToken.isBytes (t : StringToken) : Bool := t.has 'b'

def StringToken.isFormatted (t : StringToken) : Bool := t.has 'f'

inductive TokenKind where
  | name (text : String)
  | keyword (text : String)
  | number (value : Constant)
  | string (literal : StringToken)
  | op (text : String)
  | newline
  | indent
  | dedent
  | typeComment (text : String)
  | typeIgnore
  | endMarker
  deriving DecidableEq, Repr, Inhabited

structure Token where
  kind : TokenKind
  span : Span
  deriving DecidableEq, Repr, Inhabited

def keywords : List String :=
  ["False", "None", "True", "and", "as", "assert", "async", "await", "break", "class",
    "continue", "def", "del", "elif", "else", "except", "finally", "for", "from", "global", "if",
    "import", "in", "is", "lambda", "nonlocal", "not", "or", "pass", "raise", "return", "try",
    "while", "with", "yield"]

def operators : List String :=
  ["**=", "//=", ">>=", "<<=", "...",
    "!=", "%=", "&=", "**", "*=", "+=", "-=", "->", "//", "/=", ":=", "<<", "<=", "<>", "==",
    ">=", ">>", "@=", "^=", "|=",
    "%", "&", "(", ")", "*", "+", ",", "-", ".", "/", ":", ";", "<", "=", ">", "@", "[", "]",
    "^", "\x7b", "|", "\x7d", "~"]

end TypeStub.Syntax
