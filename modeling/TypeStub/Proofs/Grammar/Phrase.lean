import TypeStub.Proofs.Grammar.Taking
import TypeStub.Syntax.Parser
import TypeStub.Syntax.Printer.Expression
/-!
# The grammar of expressions

Which stretches of tokens are phrases of the language, and which trees they stand for. The grammar
says nothing about how phrases are found: there is no lookahead, no order of alternatives and no
bound on the depth. Spans are those of the stretches.
-/

namespace TypeStub.Syntax

/-! ## Arguments and parameters, one by one -/

/-- One argument of a call or a class. -/
inductive Argument where
  | positional (value : Expr)
  | starred (value : Expr)
  | named (name : String) (value : Expr)
  | unpacked (value : Expr)

def ArgState.empty : ArgState :=
  { args := [], keywords := [], sawKeyword := false, sawDoubleStar := false }

def ArgState.add (s : ArgState) : Argument → Option ArgState
  | .positional e =>
    if s.sawKeyword || s.sawDoubleStar then none else some { s with args := s.args ++ [e] }
  | .starred e => if s.sawDoubleStar then none else some { s with args := s.args ++ [e] }
  | .named id value =>
    some { s with keywords := s.keywords ++ [{ name := some id, value }], sawKeyword := true }
  | .unpacked value =>
    some { s with keywords := s.keywords ++ [{ name := none, value }], sawDoubleStar := true }

def ArgState.addAll (s : ArgState) : List Argument → Option ArgState
  | [] => some s
  | a :: rest => (s.add a).bind (·.addAll rest)

/-- One parameter, or one of the marks between parameters. -/
inductive ParamItem where
  | slash
  | star
  | vararg (param : Param Expr)
  | kwarg (param : Param Expr)
  | plain (param : Param Expr) (default : Option Expr)

def ParamState.add (s : ParamState) : ParamItem → Option ParamState
  | .slash =>
    if s.star || s.slash.isSome || s.positional.isEmpty then none
    else some { s with slash := some s.positional.length }
  | .star => if s.star then none else some { s with star := true }
  | .vararg p => if s.star then none else some { s with star := true, vararg := some p }
  | .kwarg p => some { s with kwarg := some p }
  | .plain p default =>
    if s.star then some { s with kwOnly := s.kwOnly ++ [(p, default)] }
    else if s.admits default then some { s with positional := s.positional ++ [(p, default)] }
    else none

def ParamState.addAll (s : ParamState) : List ParamItem → Option ParamState
  | [] => some s
  | i :: rest => (s.add i).bind (·.addAll rest)

/-! ## Forms and trees -/

/-- The kinds of phrases. `expr` is an expression at a level of binding; `starOr`, `list`, `commas`,
`further` and `many` build forms from forms. -/
inductive Form where
  | atom
  | expr (level : Nat)
  | named
  | yield
  | targets
  | condition
  | clause
  | operand (op : BoolOp)
  | comparison
  | entry
  | argument
  | arguments
  | bound
  | step
  | slice
  | index
  | annot (style : ParamStyle) (starAllowed : Bool)
  | default
  | param (style : ParamStyle) (more : Bool)
  | params (style : ParamStyle)
  /-- A starred operand, or the form. -/
  | starOr (form : Form)
  /-- The form, or a tuple of several. -/
  | list (form : Form)
  /-- One or more of the form with commas between them, perhaps one at the end; with `needed`, there
  is a comma at all. -/
  | commas (form : Form) (needed : Bool)
  /-- A comma and the form. -/
  | further (form : Form)
  /-- The form any number of times. -/
  | many (form : Form)

/-- What a phrase stands for. -/
inductive Tree where
  | expr (value : Expr)
  | clause (value : Clause Expr)
  | comparison (value : Comparison Expr)
  | entry (value : Entry Expr)
  | argument (value : Argument)
  | item (value : ParamItem)

abbrev Form.element : Form := .starOr .named

/-- An expression, or a tuple without brackets, some of them starred. -/
abbrev Form.tuple (level : Nat) : Form := .list (.starOr (.expr level))

/-! ## Tokens with a meaning of their own -/

def stringToken (literal : StringToken × Span) : Token :=
  { kind := .string literal.1, span := literal.2 }

/-- A comma at the end of a list, or nothing. -/
def Trailing (ts : List Token) : Prop :=
  ts = [] ∨ ∃ t, ts = [t] ∧ t.kind = .op ","

/-- What a clause of a comprehension starts with. -/
def ForWords (d : Dialect) (isAsync : Bool) (ts : List Token) : Prop :=
  if isAsync then 6 ≤ d.minor ∧ ts.map (·.kind) = [.keyword "async", .keyword "for"]
  else ts.map (·.kind) = [.keyword "for"]

def CompareOp.kinds : CompareOp → List TokenKind
  | .eq => [.op "=="]
  | .notEq => [.op "!="]
  | .lt => [.op "<"]
  | .ltE => [.op "<="]
  | .gt => [.op ">"]
  | .gtE => [.op ">="]
  | .is => [.keyword "is"]
  | .isNot => [.keyword "is", .keyword "not"]
  | .isIn => [.keyword "in"]
  | .notIn => [.keyword "not", .keyword "in"]

/-- A type comment in a parameter list, or nothing. -/
def ParamComment (style : ParamStyle) (ts : List Token) : Option String → Prop
  | none => ts = []
  | some text => style = .function ∧ ∃ t, ts = [t] ∧ t.kind = .typeComment text

/-- What stands behind a parameter: a comma if more may follow, and a type comment. -/
def ParamEnd (style : ParamStyle) (more : Bool) (comment : Option String) (ts : List Token) :
    Prop :=
  if more then ∃ t us, ts = t :: us ∧ t.kind = .op "," ∧ ParamComment style us comment
  else ParamComment style ts comment

/-- What stands behind a mark: a comma if more may follow. -/
def MarkEnd (more : Bool) (ts : List Token) : Prop :=
  if more then ∃ t, ts = [t] ∧ t.kind = .op "," else ts = []

/-! ## The grammar -/

/-- `Phrase d form ts xs`: in the dialect `d` the tokens `ts` are a phrase of the form, and it
stands for the trees `xs`. Most forms stand for exactly one tree. -/
inductive Phrase (d : Dialect) : Form → List Token → List Tree → Prop
  -- repetition and lists
  | manyNil {f} : Phrase d (.many f) [] []
  | manyCons {f ts us x xs} :
      Phrase d f ts [x] → Phrase d (.many f) us xs → Phrase d (.many f) (ts ++ us) (x :: xs)
  | further {f t ts xs} :
      t.kind = .op "," → Phrase d f ts xs → Phrase d (.further f) (t :: ts) xs
  | commas {f needed ts us tr x xs} :
      Phrase d f ts [x] → Phrase d (.many (.further f)) us xs → Trailing tr →
      (needed = true → us ++ tr ≠ []) → Phrase d (.commas f needed) (ts ++ us ++ tr) (x :: xs)
  | single {f ts e} :
      Phrase d f ts [.expr e] → Phrase d (.list f) ts [.expr e]
  | several {f ts es} :
      Phrase d (.commas f true) ts (es.map .expr) →
      Phrase d (.list f) ts [.expr (.tuple (spanOf ts) es)]
  | starred {f t ts e} :
      t.kind = .op "*" → Phrase d (.expr Level.bitOr) ts [.expr e] →
      Phrase d (.starOr f) (t :: ts) [.expr (.starred (spanOf (t :: ts)) e)]
  | unstarred {f ts e} :
      Phrase d f ts [.expr e] → Phrase d (.starOr f) ts [.expr e]
  -- atoms
  | name {t id} :
      t.kind = .name id → Phrase d .atom [t] [.expr (.name t.span id .load)]
  | constant {t word c} :
      t.kind = .keyword word → keywordConstant? word = some c →
      Phrase d .atom [t] [.expr (.constant t.span c)]
  | number {t c} :
      t.kind = .number c → Phrase d .atom [t] [.expr (.constant t.span c)]
  | ellipsis {t} :
      t.kind = .op "..." → Phrase d .atom [t] [.expr (.constant t.span .ellipsis)]
  | strings {n literals e} :
      concatLiterals (rules d n) (spanOf (literals.map stringToken)) literals = some e →
      Phrase d .atom (literals.map stringToken) [.expr e]
  | group {f o c ts e} :
      f = .named ∨ f = .yield → o.kind = .op "(" → Phrase d f ts [.expr e] →
      c.kind = .op ")" → Phrase d .atom (o :: (ts ++ [c])) [.expr e]
  | noTuple {o c} :
      o.kind = .op "(" → c.kind = .op ")" →
      Phrase d .atom [o, c] [.expr (.tuple (spanOf [o, c]) [])]
  | tuple {o c ts es} :
      o.kind = .op "(" → Phrase d (.commas .element true) ts (es.map .expr) →
      c.kind = .op ")" →
      Phrase d .atom (o :: (ts ++ [c])) [.expr (.tuple (spanOf (o :: (ts ++ [c]))) es)]
  | generator {o c ts us e cs} :
      o.kind = .op "(" → Phrase d .named ts [.expr e] →
      Phrase d (.many .clause) us (cs.map .clause) → cs ≠ [] → c.kind = .op ")" →
      Phrase d .atom (o :: (ts ++ us ++ [c]))
        [.expr (.generator (spanOf (o :: (ts ++ us ++ [c]))) e cs)]
  | noList {o c} :
      o.kind = .op "[" → c.kind = .op "]" →
      Phrase d .atom [o, c] [.expr (.list (spanOf [o, c]) [])]
  | list {o c ts es} :
      o.kind = .op "[" → Phrase d (.commas .element false) ts (es.map .expr) →
      c.kind = .op "]" →
      Phrase d .atom (o :: (ts ++ [c])) [.expr (.list (spanOf (o :: (ts ++ [c]))) es)]
  | listComp {o c ts us e cs} :
      o.kind = .op "[" → Phrase d .named ts [.expr e] →
      Phrase d (.many .clause) us (cs.map .clause) → cs ≠ [] → c.kind = .op "]" →
      Phrase d .atom (o :: (ts ++ us ++ [c]))
        [.expr (.listComp (spanOf (o :: (ts ++ us ++ [c]))) e cs)]
  | noDict {o c} :
      o.kind = .op "\x7b" → c.kind = .op "\x7d" →
      Phrase d .atom [o, c] [.expr (.dict (spanOf [o, c]) [])]
  | dict {o c ts es} :
      o.kind = .op "\x7b" → Phrase d (.commas .entry false) ts (es.map .entry) →
      c.kind = .op "\x7d" →
      Phrase d .atom (o :: (ts ++ [c])) [.expr (.dict (spanOf (o :: (ts ++ [c]))) es)]
  | dictComp {o m c ts us vs k v cs} :
      o.kind = .op "\x7b" → Phrase d (.expr Level.test) ts [.expr k] → m.kind = .op ":" →
      Phrase d (.expr Level.test) us [.expr v] → Phrase d (.many .clause) vs (cs.map .clause) →
      cs ≠ [] → c.kind = .op "\x7d" →
      Phrase d .atom (o :: (ts ++ m :: (us ++ vs ++ [c])))
        [.expr (.dictComp (spanOf (o :: (ts ++ m :: (us ++ vs ++ [c])))) k v cs)]
  | set {o c ts es} :
      o.kind = .op "\x7b" → Phrase d (.commas .element false) ts (es.map .expr) →
      c.kind = .op "\x7d" →
      Phrase d .atom (o :: (ts ++ [c])) [.expr (.set (spanOf (o :: (ts ++ [c]))) es)]
  | setComp {o c ts us e cs} :
      o.kind = .op "\x7b" → Phrase d .named ts [.expr e] →
      Phrase d (.many .clause) us (cs.map .clause) → cs ≠ [] → c.kind = .op "\x7d" →
      Phrase d .atom (o :: (ts ++ us ++ [c]))
        [.expr (.setComp (spanOf (o :: (ts ++ us ++ [c]))) e cs)]
  | plainEntry {m ts us k v} :
      Phrase d (.expr Level.test) ts [.expr k] → m.kind = .op ":" →
      Phrase d (.expr Level.test) us [.expr v] →
      Phrase d .entry (ts ++ m :: us) [.entry { key := some k, value := v }]
  | unpackedEntry {t ts v} :
      t.kind = .op "**" → Phrase d (.expr Level.bitOr) ts [.expr v] →
      Phrase d .entry (t :: ts) [.entry { key := none, value := v }]
  -- named expressions, yields and the parts of comprehensions
  | named {t a id ts e} :
      t.kind = .name id → a.kind = .op ":=" → Phrase d (.expr Level.test) ts [.expr e] →
      8 ≤ d.minor →
      Phrase d .named (t :: a :: ts)
        [.expr (.named (spanOf (t :: a :: ts)) (.name t.span id .store) e)]
  | unnamed {ts e} :
      Phrase d (.expr Level.test) ts [.expr e] → Phrase d .named ts [.expr e]
  | yieldFrom {y f ts e} :
      y.kind = .keyword "yield" → f.kind = .keyword "from" →
      Phrase d (.expr Level.test) ts [.expr e] →
      Phrase d .yield (y :: f :: ts) [.expr (.yieldFrom (spanOf (y :: f :: ts)) e)]
  | yieldNothing {y} :
      y.kind = .keyword "yield" → Phrase d .yield [y] [.expr (.yield y.span none)]
  | yieldValue {y ts e} :
      y.kind = .keyword "yield" → Phrase d (.tuple Level.test) ts [.expr e] →
      Phrase d .yield (y :: ts) [.expr (.yield (spanOf (y :: ts)) (some e))]
  | targets {ts e t} :
      Phrase d (.tuple Level.bitOr) ts [.expr e] → e.toTarget? .bind = some t →
      Phrase d .targets ts [.expr t]
  | condition {t ts e} :
      t.kind = .keyword "if" → Phrase d (.expr Level.or) ts [.expr e] →
      Phrase d .condition (t :: ts) [.expr e]
  | clause {w ts us vs i isAsync target iter conditions} :
      ForWords d isAsync w → Phrase d .targets ts [.expr target] → i.kind = .keyword "in" →
      Phrase d (.expr Level.or) us [.expr iter] →
      Phrase d (.many .condition) vs (conditions.map .expr) →
      Phrase d .clause (w ++ (ts ++ i :: (us ++ vs)))
        [.clause { target, iter, conditions, isAsync }]
  -- arguments and subscripts
  | positional {ts e} :
      Phrase d .named ts [.expr e] → Phrase d .argument ts [.argument (.positional e)]
  | starredArgument {t ts e} :
      t.kind = .op "*" → Phrase d (.expr Level.test) ts [.expr e] →
      Phrase d .argument (t :: ts) [.argument (.starred (.starred (spanOf (t :: ts)) e))]
  | namedArgument {t a id ts e} :
      t.kind = .name id → a.kind = .op "=" → Phrase d (.expr Level.test) ts [.expr e] →
      Phrase d .argument (t :: a :: ts) [.argument (.named id e)]
  | unpackedArgument {t ts e} :
      t.kind = .op "**" → Phrase d (.expr Level.test) ts [.expr e] →
      Phrase d .argument (t :: ts) [.argument (.unpacked e)]
  | noArguments : Phrase d .arguments [] []
  | arguments {ts xs} :
      Phrase d (.commas .argument false) ts xs → Phrase d .arguments ts xs
  | noBound : Phrase d .bound [] []
  | bound {ts e} :
      Phrase d (.expr Level.test) ts [.expr e] → Phrase d .bound ts [.expr e]
  | noStep : Phrase d .step [] []
  | step {t ts xs} :
      t.kind = .op ":" → Phrase d .bound ts xs → Phrase d .step (t :: ts) xs
  | slice {m ts us vs lower upper step} :
      Phrase d .bound ts (lower.toList.map .expr) → m.kind = .op ":" →
      Phrase d .bound us (upper.toList.map .expr) → Phrase d .step vs (step.toList.map .expr) →
      Phrase d .slice (ts ++ m :: (us ++ vs))
        [.expr (.slice (spanOf (ts ++ m :: (us ++ vs))) lower upper step)]
  | starredSlice {t ts e} :
      t.kind = .op "*" → Phrase d (.expr Level.test) ts [.expr e] →
      Phrase d .slice (t :: ts) [.expr (.starred (spanOf (t :: ts)) e)]
  | plainSlice {ts e} :
      Phrase d .named ts [.expr e] → Phrase d .slice ts [.expr e]
  | index {ts e} :
      Phrase d .slice ts [.expr e] → e.isStarred = false → Phrase d .index ts [.expr e]
  | starredIndex {ts e} :
      Phrase d .slice ts [.expr e] → e.isStarred = true →
      Phrase d .index ts [.expr (.tuple (spanOf ts) [e])]
  | indices {ts es} :
      Phrase d (.commas .slice true) ts (es.map .expr) →
      Phrase d .index ts [.expr (.tuple (spanOf ts) es)]
  -- primaries
  | atom {ts e} :
      Phrase d .atom ts [.expr e] → Phrase d (.expr Level.atom) ts [.expr e]
  | member {ts p n e id} :
      Phrase d (.expr Level.atom) ts [.expr e] → p.kind = .op "." → n.kind = .name id →
      Phrase d (.expr Level.atom) (ts ++ [p, n])
        [.expr (.attribute (spanOf (ts ++ [p, n])) e id)]
  | call {ts us o c e as st} :
      Phrase d (.expr Level.atom) ts [.expr e] → o.kind = .op "(" →
      Phrase d .arguments us (as.map .argument) → c.kind = .op ")" →
      ArgState.empty.addAll as = some st →
      Phrase d (.expr Level.atom) (ts ++ o :: (us ++ [c]))
        [.expr (.call (spanOf (ts ++ o :: (us ++ [c]))) e st.args st.keywords)]
  | callGenerator {ts us vs o c e elt cs} :
      Phrase d (.expr Level.atom) ts [.expr e] → o.kind = .op "(" →
      Phrase d .named us [.expr elt] → Phrase d (.many .clause) vs (cs.map .clause) →
      cs ≠ [] → c.kind = .op ")" →
      Phrase d (.expr Level.atom) (ts ++ o :: (us ++ vs ++ [c]))
        [.expr (.call (spanOf (ts ++ o :: (us ++ vs ++ [c]))) e
          [.generator (spanOf (o :: (us ++ vs ++ [c]))) elt cs] [])]
  | subscript {ts us o c e i} :
      Phrase d (.expr Level.atom) ts [.expr e] → o.kind = .op "[" →
      Phrase d .index us [.expr i] → c.kind = .op "]" →
      Phrase d (.expr Level.atom) (ts ++ o :: (us ++ [c]))
        [.expr (.subscript (spanOf (ts ++ o :: (us ++ [c]))) e i)]
  -- operators
  | lift {k ts e} :
      Level.test ≤ k → k < Level.atom → Phrase d (.expr (k + 1)) ts [.expr e] →
      Phrase d (.expr k) ts [.expr e]
  | await {t ts e} :
      5 ≤ d.minor → t.kind = .keyword "await" → Phrase d (.expr Level.atom) ts [.expr e] →
      Phrase d (.expr Level.await) (t :: ts) [.expr (.await (spanOf (t :: ts)) e)]
  | power {t ts us l r} :
      Phrase d (.expr Level.await) ts [.expr l] → t.kind = .op "**" →
      Phrase d (.expr Level.factor) us [.expr r] →
      Phrase d (.expr Level.power) (ts ++ t :: us)
        [.expr (.binOp (spanOf (ts ++ t :: us)) l .pow r)]
  | sign {t op ts e} :
      signOp? t.kind = some op → Phrase d (.expr Level.factor) ts [.expr e] →
      Phrase d (.expr Level.factor) (t :: ts) [.expr (.unaryOp (spanOf (t :: ts)) op e)]
  | binary {t op ts us l r} :
      op ≠ .pow → (op = .matMult → 5 ≤ d.minor) →
      Phrase d (.expr op.level) ts [.expr l] →
      t.kind = .op op.text → Phrase d (.expr (op.level + 1)) us [.expr r] →
      Phrase d (.expr op.level) (ts ++ t :: us)
        [.expr (.binOp (spanOf (ts ++ t :: us)) l op r)]
  | comparison {w ts op e} :
      w.map (·.kind) = op.kinds → Phrase d (.expr Level.bitOr) ts [.expr e] →
      Phrase d .comparison (w ++ ts) [.comparison { op, right := e }]
  | compare {ts us e cs} :
      Phrase d (.expr Level.bitOr) ts [.expr e] →
      Phrase d (.many .comparison) us (cs.map .comparison) → cs ≠ [] →
      Phrase d (.expr Level.compare) (ts ++ us) [.expr (.compare (spanOf (ts ++ us)) e cs)]
  | inversion {t ts e} :
      t.kind = .keyword "not" → Phrase d (.expr Level.not) ts [.expr e] →
      Phrase d (.expr Level.not) (t :: ts) [.expr (.unaryOp (spanOf (t :: ts)) .not e)]
  | operand {t op ts e} :
      t.kind = .keyword op.text → Phrase d (.expr (op.level + 1)) ts [.expr e] →
      Phrase d (.operand op) (t :: ts) [.expr e]
  | boolOp {op ts us e es} :
      Phrase d (.expr (op.level + 1)) ts [.expr e] →
      Phrase d (.many (.operand op)) us (es.map .expr) → es ≠ [] →
      Phrase d (.expr op.level) (ts ++ us) [.expr (.boolOp (spanOf (ts ++ us)) op (e :: es))]
  | ifExp {i l ts us vs body test orelse} :
      Phrase d (.expr Level.or) ts [.expr body] → i.kind = .keyword "if" →
      Phrase d (.expr Level.or) us [.expr test] → l.kind = .keyword "else" →
      Phrase d (.expr Level.test) vs [.expr orelse] →
      Phrase d (.expr Level.test) (ts ++ i :: (us ++ l :: vs))
        [.expr (.ifExp (spanOf (ts ++ i :: (us ++ l :: vs))) test body orelse)]
  | lambda {t m ts us items st body} :
      t.kind = .keyword "lambda" → Phrase d (.params .lambda) ts (items.map .item) →
      ParamState.empty.addAll items = some st → st.isComplete = true →
      (st.toParams.posOnly ≠ [] → 8 ≤ d.minor) → m.kind = .op ":" →
      Phrase d (.expr Level.test) us [.expr body] →
      Phrase d (.expr Level.test) (t :: (ts ++ m :: us))
        [.expr (.lambda (spanOf (t :: (ts ++ m :: us))) st.toParams body)]
  -- parameters
  | noAnnot {style star} : Phrase d (.annot style star) [] []
  | annot {star m ts e} :
      m.kind = .op ":" → Phrase d (.expr Level.test) ts [.expr e] →
      Phrase d (.annot .function star) (m :: ts) [.expr e]
  | starredAnnot {m t ts e} :
      m.kind = .op ":" → t.kind = .op "*" → Phrase d (.expr Level.bitOr) ts [.expr e] →
      Phrase d (.annot .function true) (m :: t :: ts)
        [.expr (.starred (spanOf (t :: ts)) e)]
  | noDefault : Phrase d .default [] []
  | default {t ts e} :
      t.kind = .op "=" → Phrase d (.expr Level.test) ts [.expr e] →
      Phrase d .default (t :: ts) [.expr e]
  | slash {style more t ts} :
      t.kind = .op "/" → MarkEnd more ts → Phrase d (.param style more) (t :: ts) [.item .slash]
  | bareStar {style t c} :
      t.kind = .op "*" → c.kind = .op "," → Phrase d (.param style true) [t, c] [.item .star]
  | vararg {style more t n id ts us annot typeComment} :
      t.kind = .op "*" → n.kind = .name id →
      Phrase d (.annot style true) ts (annot.toList.map .expr) →
      ParamEnd style more typeComment us →
      Phrase d (.param style more) (t :: n :: (ts ++ us))
        [.item (.vararg { name := id, annot, typeComment })]
  | kwarg {style more t n id ts us annot typeComment} :
      t.kind = .op "**" → n.kind = .name id →
      Phrase d (.annot style false) ts (annot.toList.map .expr) →
      ParamEnd style more typeComment us →
      Phrase d (.param style false) (t :: n :: (ts ++ us))
        [.item (.kwarg { name := id, annot, typeComment })]
  | plain {style more n id ts us vs annot value typeComment} :
      n.kind = .name id → Phrase d (.annot style false) ts (annot.toList.map .expr) →
      Phrase d .default us (value.toList.map .expr) → ParamEnd style more typeComment vs →
      Phrase d (.param style more) (n :: (ts ++ us ++ vs))
        [.item (.plain { name := id, annot, typeComment } value)]
  | noParams {style} : Phrase d (.params style) [] []
  | lastParam {style ts x} :
      Phrase d (.param style false) ts [x] → Phrase d (.params style) ts [x]
  | moreParams {style ts us x xs} :
      Phrase d (.param style true) ts [x] → Phrase d (.params style) us xs →
      Phrase d (.params style) (ts ++ us) (x :: xs)

/-! ## Which phrases have tokens -/

def Form.canBeEmpty : Form → Bool
  | .arguments | .bound | .step | .annot .. | .default | .params _ | .many _ => true
  | .starOr f | .list f | .commas f _ => f.canBeEmpty
  | _ => false

theorem Phrase.ne_nil {d f ts xs} (h : Phrase d f ts xs) (hf : f.canBeEmpty = false) :
    ts ≠ [] := by
  induction h with
  | strings h =>
    intro hnil
    obtain rfl := List.map_eq_nil_iff.1 hnil
    cases h
  | _ => simp_all [Form.canBeEmpty]

/-- Without tokens nothing is repeated. -/
theorem Phrase.many_eq_nil {d f ts xs} (h : Phrase d (.many f) ts xs) (hf : f.canBeEmpty = false)
    (hts : ts = []) : xs = [] := by
  cases h with
  | manyNil => rfl
  | manyCons hx _ => exact absurd (List.append_eq_nil_iff.1 hts).1 (hx.ne_nil hf)

end TypeStub.Syntax
