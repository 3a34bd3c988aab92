import TypeStub.Text.Replace
/-!
# Words of command lines

Arguments are joined to a line that a shell would split into them again, and lines are split as a
shell would do it.
-/

namespace TypeStub.Text

def isPlainInWord (c : Char) : Bool :=
  c.isAlphanum || "_@%+=:,./-".toList.contains c

def quoteWord (word : String) : String :=
  if word.isEmpty then "''"
  else if word.toList.all isPlainInWord then word
  else "'" ++ replaceEach [("'", "'\"'\"'")] word ++ "'"

def joinWords (words : List String) : String :=
  join " " (words.map quoteWord)

/-- Where in a line the splitting is: between words, in a word, in quotes, or behind a backslash.
A backslash returns to where it was found. -/
inductive WordState where
  | between
  | word
  | quoted (mark : Char)
  | escaped (inQuotes : Bool)
  deriving DecidableEq, Repr

def separatesWords (c : Char) : Bool :=
  c == ' ' || c == '\t' || c == '\r' || c == '\n'

/-- Splits the rest of a line. `word` holds the characters of the current word in reverse. -/
def splitWordsFrom (state : WordState) (word : List Char) :
    List Char → Option (List String)
  | [] =>
    match state with
    | .between => some []
    | .word => some [String.ofList word.reverse]
    | .quoted _ | .escaped _ => none
  | c :: rest =>
    match state with
    | .between =>
      if separatesWords c then splitWordsFrom .between [] rest
      else if c == '\\' then splitWordsFrom (.escaped false) [] rest
      else if c == '\'' || c == '"' then splitWordsFrom (.quoted c) [] rest
      else splitWordsFrom .word [c] rest
    | .word =>
      if separatesWords c then
        (splitWordsFrom .between [] rest).map (String.ofList word.reverse :: ·)
      else if c == '\\' then splitWordsFrom (.escaped false) word rest
      else if c == '\'' || c == '"' then splitWordsFrom (.quoted c) word rest
      else splitWordsFrom .word (c :: word) rest
    | .quoted q =>
      if c == q then splitWordsFrom .word word rest
      else if c == '\\' && q == '"' then splitWordsFrom (.escaped true) word rest
      else splitWordsFrom (.quoted q) (c :: word) rest
    | .escaped true =>
      if c == '\\' || c == '"' then splitWordsFrom (.quoted '"') (c :: word) rest
      else splitWordsFrom (.quoted '"') (c :: '\\' :: word) rest
    | .escaped false => splitWordsFrom .word (c :: word) rest

/-- The words of a line; none if a quote or a backslash is left open. -/
def splitWords (line : String) : Option (List String) :=
  splitWordsFrom .between [] line.toList

end TypeStub.Text
