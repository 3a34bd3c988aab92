import TypeStub.Config.Valid
import TypeStub.Stub.Node
/-!
# Stubbing sessions

Stubbing reads a source under a configuration, writes remarks to a log, and may fail. The log
stays when it fails.
-/

namespace TypeStub

open TypeStub.Syntax TypeStub.Regex

/-- Why a source cannot be stubbed. -/
inductive StubError
  | read (cause : ReadError)
  | print (cause : PrintError)
  | span (cause : SpanError)
  | regex (cause : RegexError)
  /-- Something that has to fit into one line does not. -/
  | severalLines (text : String)
  /-- A class unpacks keywords. -/
  | namelessKeyword
  deriving DecidableEq, Repr

def StubError.message : StubError → String
  | .severalLines text => text
  | .span cause => cause.message
  | .read _ | .print _ | .regex _ | .namelessKeyword => ""

/-- What a session works with. `used` holds the names that imports are kept for; without it all
imports are kept. -/
structure Session where
  source : Source
  config : ValidConfig
  debug : Bool
  used : Option (List String)

abbrev Log := List String

abbrev StubM := ExceptT StubError (StateM Log)

namespace StubM

/-- A result as a step, which fails for the reason that its error is. -/
def ofResult {ε α : Type} (reason : ε → StubError) : Except ε α → StubM α
  | .ok a => pure a
  | .error cause => throw (reason cause)

abbrev ofRead {α : Type} : Except ReadError α → StubM α := ofResult .read

abbrev ofPrint {α : Type} : Except PrintError α → StubM α := ofResult .print

abbrev ofSpan {α : Type} : Except SpanError α → StubM α := ofResult .span

abbrev ofRegex {α : Type} : Except RegexError α → StubM α := ofResult .regex

def exprLine (e : Expr) : StubM String :=
  ofPrint e.render

def say (line : String) : StubM Unit :=
  modify (· ++ [line])

/-- Remarks that syntax was left out that cannot be handled. -/
def sayUnexpected (what : String) : StubM Unit :=
  say ("Unexpected syntax ignored: " ++ what)

def oneLine (text : String) : StubM String :=
  if text.toList.contains '\n' then throw (.severalLines text) else pure text

end StubM

namespace Session

/-- Remarks that something was left out because of the configuration. -/
def sayPruned (s : Session) (what : String) : StubM Unit :=
  if s.debug then StubM.say ("Pruning " ++ what) else pure ()

/-- Remarks that a statement was left out because stubs do not need it. -/
def sayIgnored (s : Session) (stmt : Stmt) : StubM Unit :=
  if s.debug then StubM.say ("Expected syntax ignored: " ++ stmt.className ++ " statement")
  else pure ()

def context (s : Session) (parentTags tags : List Tag) : Filter.Context :=
  { parentTags, tags, filePath := s.source.path }

def isMatch (f : Filter) (ctx : Filter.Context) : StubM Bool :=
  StubM.ofRegex (f.isMatch ctx)

end Session

end TypeStub
