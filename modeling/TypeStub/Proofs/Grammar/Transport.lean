import TypeStub.Proofs.Grammar.Phrase
import TypeStub.Proofs.Lexing.Scanning
import TypeStub.Proofs.Syntax.Unplaced
/-!
# Phrases in other places

Tokens of the same kinds in other places spell the same tree but for positions. This is shown for
the expressions that conditions are written as: truth values, texts, names, calls with positional
arguments, and the truth operators.
-/

namespace TypeStub.Syntax

/-! ## Simple expressions -/

/-- Truth values, texts, names, calls with positional arguments, and truth operators. -/
inductive Expr.Simple : Expr → Prop
  | bool {span value} : Simple (.constant span (.bool value))
  | str {span points marked} :
      Simple (.constant span (.str points marked))
  | name {span id} : Simple (.name span id .load)
  | call {span func args} :
      Simple func → (∀ a ∈ args, Simple a) → Simple (.call span func args [])
  | not {span operand} : Simple operand → Simple (.unaryOp span .not operand)
  | boolOp {span op values} :
      (∀ v ∈ values, Simple v) → Simple (.boolOp span op values)

theorem Expr.Simple.of_call {span func args keywords}
    (h : (Expr.call span func args keywords).Simple) :
    func.Simple ∧ (∀ a ∈ args, a.Simple) ∧ keywords = [] := by
  cases h with
  | call hfunc hargs => exact ⟨hfunc, hargs, rfl⟩

/-- Arguments that go by their position. -/
def Argument.Simple : Argument → Prop
  | .positional e | .starred e => e.Simple
  | .named .. | .unpacked _ => False

def Tree.Simple : Tree → Prop
  | .expr e => e.Simple
  | .argument a => a.Simple
  | _ => False

def Form.isSimple : Form → Bool
  | .atom | .expr _ | .named | .operand _ | .argument | .arguments => true
  | .starOr f | .list f | .commas f _ | .further f | .many f => f.isSimple
  | _ => false

def TokenKind.isSimple : TokenKind → Bool
  | .name _ | .op _ => true
  | .keyword word => (TokenKind.keyword word).isPlain
  | .string literal => (TokenKind.string literal).isPlain
  | .number value => !value.isNumber
  | _ => false

theorem signOp?_ne_not (k : TokenKind) : signOp? k ≠ some .not := by
  unfold signOp?
  split <;> simp

theorem Trailing.kinds_isSimple {ts} (h : Trailing ts) : ∀ t ∈ ts, t.kind.isSimple = true := by
  obtain rfl | ⟨t, rfl, ht⟩ := h
  · simp
  · exact List.forall_mem_singleton.2 (by rw [ht]; rfl)

/-! ## Arguments and trees without positions -/

def Argument.unplaced : Argument → Argument
  | .positional e => .positional e.unplaced
  | .starred e => .starred e.unplaced
  | .named id e => .named id e.unplaced
  | .unpacked e => .unpacked e.unplaced

def Tree.unplaced : Tree → Tree
  | .expr e => .expr e.unplaced
  | .argument a => .argument a.unplaced
  | x => x

theorem Tree.unplaced_eq_expr {x : Tree} {e : Expr} (h : x.unplaced = (Tree.expr e).unplaced) :
    ∃ e', x = .expr e' ∧ e'.unplaced = e.unplaced := by
  cases x with
  | expr e' => exact ⟨e', rfl, Tree.expr.inj h⟩
  | _ => cases h

theorem Tree.unplaced_eq_argument {x : Tree} {a : Argument}
    (h : x.unplaced = (Tree.argument a).unplaced) :
    ∃ a', x = .argument a' ∧ a'.unplaced = a.unplaced := by
  cases x with
  | argument a' => exact ⟨a', rfl, Tree.argument.inj h⟩
  | _ => cases h

theorem Tree.unplaced_eq_map {α : Type} {make : α → Tree} {unplace : α → α} {xs : List Tree}
    {as : List α}
    (hmake : ∀ {x a}, x.unplaced = (make a).unplaced → ∃ a', x = make a' ∧
    unplace a' = unplace a) (h : xs.map Tree.unplaced = (as.map make).map Tree.unplaced) :
    ∃ as' : List α, xs = as'.map make ∧ as'.map unplace = as.map unplace := by
  induction as generalizing xs with
  | nil => exact ⟨[], List.map_eq_nil_iff.1 h, rfl⟩
  | cons a as ih =>
    obtain ⟨x, xs, rfl, hx, hxs⟩ := List.map_eq_cons_iff.1 h
    obtain ⟨a', rfl, ha⟩ := hmake hx
    obtain ⟨as', rfl, has⟩ := ih hxs
    exact ⟨a' :: as', rfl, by rw [List.map_cons, List.map_cons, ha, has]⟩

def ArgState.unplaced (s : ArgState) : ArgState :=
  { s with args := unplacedAll s.args, keywords := unplacedKeywords s.keywords }

theorem Expr.unplaced_call (span : Span) (func : Expr) (s : ArgState) :
    (Expr.call span func s.args s.keywords).unplaced
      = .call .nowhere func.unplaced s.unplaced.args s.unplaced.keywords :=
  rfl

theorem ArgState.add_unplaced (s : ArgState) (a : Argument) :
    s.unplaced.add a.unplaced = (s.add a).map unplaced := by
  cases a with
  | positional e | starred e =>
    simp only [Argument.unplaced, add]
    split <;> simp_all [unplaced, unplacedAll_eq_map]
  | named id e | unpacked e =>
    simp [Argument.unplaced, add, unplaced, unplacedKeywords_eq_map, unplacedKeyword]

theorem ArgState.addAll_unplaced (s : ArgState) (as : List Argument) :
    s.unplaced.addAll (as.map Argument.unplaced) = (s.addAll as).map unplaced := by
  induction as generalizing s with
  | nil => rfl
  | cons a as ih =>
    rw [List.map_cons, addAll, addAll, add_unplaced]
    cases s.add a with
    | none => rfl
    | some s' => exact ih s'

/-- Arguments in other places are put together in the same way. -/
theorem ArgState.addAll_moved {st as as'} (h : empty.addAll as = some st)
    (hsame : as'.map Argument.unplaced = as.map Argument.unplaced) :
    ∃ st', empty.addAll as' = some st' ∧ st'.unplaced = st.unplaced := by
  have h' := addAll_unplaced empty as'
  rw [hsame, addAll_unplaced, h] at h'
  obtain ⟨st', hst', heq⟩ := Option.map_eq_some_iff.1 h'.symm
  exact ⟨st', hst', heq⟩

/-- Simple arguments without names come from simple arguments that go by their position. -/
theorem ArgState.addAll_simple {s st : ArgState} {as} (h : s.addAll as = some st)
    (hkeywords : st.keywords = []) (hargs : ∀ e ∈ st.args, e.Simple) :
    s.keywords = [] ∧ (∀ e ∈ s.args, e.Simple) ∧ ∀ a ∈ as, a.Simple := by
  induction as generalizing s with
  | nil =>
    cases h
    exact ⟨hkeywords, hargs, by simp⟩
  | cons a as ih =>
    obtain ⟨s', hs', h⟩ := Option.bind_eq_some_iff.1 h
    obtain ⟨hk, he, has⟩ := ih h
    cases a with
    | positional e | starred e =>
      simp only [add] at hs'
      split at hs'
      · cases hs'
      · obtain rfl := Option.some.inj hs'
        simp_all [Argument.Simple]
    | named id e | unpacked e =>
      obtain rfl := Option.some.inj hs'
      simp at hk

/-! ## Tokens of the same kinds -/

/-- Tokens of the same kinds, perhaps in other places. -/
def SameKinds (ts ts' : List Token) : Prop :=
  ts'.map (·.kind) = ts.map (·.kind)

namespace SameKinds

variable {ts us ts' : List Token} {t : Token}

theorem nil (h : SameKinds [] ts') : ts' = [] :=
  List.map_eq_nil_iff.1 h

theorem cons (h : SameKinds (t :: ts) ts') :
    ∃ t' us', ts' = t' :: us' ∧ t'.kind = t.kind ∧ SameKinds ts us' := by
  obtain ⟨t', us', rfl, ht, hus⟩ := List.map_eq_cons_iff.1 h
  exact ⟨t', us', rfl, ht, hus⟩

theorem single (h : SameKinds [t] ts') : ∃ t', ts' = [t'] ∧ t'.kind = t.kind := by
  obtain ⟨t', us', rfl, ht, hus⟩ := h.cons
  obtain rfl := hus.nil
  exact ⟨t', rfl, ht⟩

theorem append (h : SameKinds (ts ++ us) ts') :
    ∃ vs ws, ts' = vs ++ ws ∧ SameKinds ts vs ∧ SameKinds us ws := by
  rw [SameKinds, List.map_append] at h
  obtain ⟨vs, ws, rfl, hvs, hws⟩ := List.map_eq_append_iff.1 h
  exact ⟨vs, ws, rfl, hvs, hws⟩

theorem join {us us'} (h : SameKinds ts ts') (h' : SameKinds us us') :
    SameKinds (ts ++ us) (ts' ++ us') := by
  rw [SameKinds, List.map_append, List.map_append, h, h']

theorem ne_nil (h : SameKinds ts ts') (hts : ts ≠ []) : ts' ≠ [] := by
  rintro rfl
  exact hts (List.map_eq_nil_iff.1 h.symm)

theorem trailing (h : SameKinds ts ts') (hts : Trailing ts) : Trailing ts' := by
  obtain rfl | ⟨t, rfl, ht⟩ := hts
  · exact .inl h.nil
  · obtain ⟨t', rfl, ht'⟩ := h.single
    exact .inr ⟨t', rfl, ht'.trans ht⟩

theorem between {o c : Token} (h : SameKinds (o :: (ts ++ [c])) ts') :
    ∃ o' us' c', ts' = o' :: (us' ++ [c']) ∧ o'.kind = o.kind ∧ SameKinds ts us' ∧
      c'.kind = c.kind := by
  obtain ⟨o', _, rfl, ho, h⟩ := h.cons
  obtain ⟨us', _, rfl, hus, h⟩ := h.append
  obtain ⟨c', rfl, hc⟩ := h.single
  exact ⟨o', us', c', rfl, ho, hus, hc⟩

theorem literals {literals : List (StringToken × Span)}
    (h : SameKinds (literals.map stringToken) ts') : ∃ literals' : List (StringToken × Span),
      ts' = literals'.map stringToken ∧ literals'.map (·.1) = literals.map (·.1) := by
  induction literals generalizing ts' with
  | nil => exact ⟨[], h.nil, rfl⟩
  | cons l ls ih =>
    obtain ⟨⟨kind, span⟩, us', rfl, hkind, hus⟩ := h.cons
    obtain ⟨ls', rfl, hls⟩ := ih hus
    obtain rfl : kind = .string l.1 := hkind
    exact ⟨(l.1, span) :: ls', rfl, by simp [hls]⟩

end SameKinds

theorem between_isSimple {o c : Token} {ts a b} (ho : o.kind = .op a)
    (hts : ∀ t ∈ ts, t.kind.isSimple = true) (hc : c.kind = .op b) :
    ∀ t ∈ o :: (ts ++ [c]), t.kind.isSimple = true := by
  refine List.forall_mem_cons.2 ⟨by rw [ho]; rfl, List.forall_mem_append.2 ⟨hts, ?_⟩⟩
  exact List.forall_mem_singleton.2 (by rw [hc]; rfl)

/-! ## Literals -/

theorem concatLiterals_simple {r span literals e} (h : concatLiterals r span literals = some e)
    (he : e.Simple) : ∀ l ∈ literals, l.1.isFormatted = false := by
  cases literals with
  | nil => simp
  | cons first more =>
    simp only [concatLiterals] at h
    split at h
    · obtain ⟨_, _, h⟩ := Option.bind_eq_some_iff.1 h
      cases h
      cases he
    · split at h
      · cases h
      · obtain ⟨_, _, h⟩ := Option.bind_eq_some_iff.1 h
        split at h
        · cases h
          cases he
        · next hnone => simpa using hnone

/-- The text of a literal without expressions in braces. -/
def StringToken.plainPieces (t : StringToken) : Option (List Piece) :=
  (decodeText t.isRaw t.body).map fun points => [.text points]

theorem mapM_fst {β : Type} (g : StringToken → Option β)
    (literals : List (StringToken × Span)) :
    literals.mapM (fun l => g l.1) = (literals.map (·.1)).mapM g := by
  induction literals with
  | nil => rfl
  | cons l ls ih => rw [List.map_cons, List.mapM_cons, List.mapM_cons, ih]

theorem mapM_tokenPieces {r marked whole} {literals : List (StringToken × Span)}
    (hplain : ∀ l ∈ literals, l.1.isFormatted = false) :
    literals.mapM (fun l => tokenPieces r marked whole l.1 l.2)
      = literals.mapM fun l => l.1.plainPieces := by
  induction literals with
  | nil => rfl
  | cons l ls ih =>
    obtain ⟨hl, hls⟩ := List.forall_mem_cons.1 hplain
    rw [List.mapM_cons, List.mapM_cons, ih hls, tokenPieces, hl]
    rfl

def plainLiterals (tokens : List StringToken) : Option Constant :=
  if tokens.all (·.isBytes) then do
    let parts ← tokens.mapM fun t => decodeBytes t.isRaw t.body
    some (.bytes parts.flatten)
  else if tokens.any (·.isBytes) then none
  else do
    let pieces ← tokens.mapM StringToken.plainPieces
    let points := pieces.flatten.flatMap fun
      | .text points => points
      | .expr _ => []
    some (.str points ((tokens.head?.bind (·.letters.head?)) == some 'u'))

/-- Literals without expressions in braces have the same value wherever they stand. -/
theorem concatLiterals_eq_plainLiterals {r span} {literals : List (StringToken × Span)}
    (hne : literals ≠ []) (hplain : ∀ l ∈ literals, l.1.isFormatted = false) :
    concatLiterals r span literals
      = (plainLiterals (literals.map (·.1))).map (.constant span) := by
  obtain ⟨l, ls, rfl⟩ := List.exists_cons_of_ne_nil hne
  have hnone : (l :: ls).any (·.1.isFormatted) = false := by
    simpa using hplain
  simp only [concatLiterals, plainLiterals, hnone, mapM_tokenPieces hplain,
    mapM_fst StringToken.plainPieces, mapM_fst fun t => decodeBytes t.isRaw t.body,
    List.all_map, List.any_map, Function.comp_def]
  split
  · cases ((l :: ls).map (·.1)).mapM fun t => decodeBytes t.isRaw t.body <;> rfl
  · split
    · rfl
    · cases ((l :: ls).map (·.1)).mapM StringToken.plainPieces <;> rfl

/-! ## Transport -/

/-- The tokens are simple, and tokens of the same kinds spell the same trees but for positions. -/
structure Movable (d : Dialect) (f : Form) (ts : List Token) (xs : List Tree) : Prop where
  kinds : ∀ t ∈ ts, t.kind.isSimple = true
  moved : ∀ ts', SameKinds ts ts' →
    ∃ xs', Phrase d f ts' xs' ∧ xs'.map Tree.unplaced = xs.map Tree.unplaced

namespace Movable

variable {d : Dialect} {f : Form} {ts us ts' : List Token} {xs : List Tree} {x : Tree} {e : Expr}

theorem moved_one (h : Movable d f ts [x]) (hts : SameKinds ts ts') :
    ∃ x', Phrase d f ts' [x'] ∧ x'.unplaced = x.unplaced := by
  obtain ⟨xs', hp, hxs⟩ := h.moved ts' hts
  obtain ⟨x', rfl, hx⟩ := List.map_eq_singleton_iff.1 hxs
  exact ⟨x', hp, hx⟩

theorem moved_expr (h : Movable d f ts [.expr e]) (hts : SameKinds ts ts') :
    ∃ e', Phrase d f ts' [.expr e'] ∧ e'.unplaced = e.unplaced := by
  obtain ⟨x', hp, hx⟩ := h.moved_one hts
  obtain ⟨e', rfl, he⟩ := Tree.unplaced_eq_expr hx
  exact ⟨e', hp, he⟩

theorem moved_exprs {es : List Expr} (h : Movable d f ts (es.map .expr)) (hts : SameKinds ts ts') :
    ∃ es' : List Expr, Phrase d f ts' (es'.map .expr) ∧ unplacedAll es' = unplacedAll es := by
  obtain ⟨xs', hp, hxs⟩ := h.moved ts' hts
  obtain ⟨es', rfl, hes⟩ := Tree.unplaced_eq_map Tree.unplaced_eq_expr hxs
  exact ⟨es', hp, by rw [unplacedAll_eq_map, unplacedAll_eq_map, hes]⟩

theorem moved_arguments {as : List Argument} (h : Movable d f ts (as.map .argument))
    (hts : SameKinds ts ts') : ∃ as' : List Argument, Phrase d f ts' (as'.map .argument) ∧
      as'.map Argument.unplaced = as.map Argument.unplaced := by
  obtain ⟨xs', hp, hxs⟩ := h.moved ts' hts
  obtain ⟨as', rfl, has⟩ := Tree.unplaced_eq_map Tree.unplaced_eq_argument hxs
  exact ⟨as', hp, has⟩

theorem token {t} {x : Token → Tree} (ht : t.kind.isSimple = true)
    (hp : ∀ {t'}, t'.kind = t.kind → Phrase d f [t'] [x t'])
    (hx : ∀ {t'}, (x t').unplaced = (x t).unplaced) : Movable d f [t] [x t] where
  kinds := by simpa using ht
  moved ts' hts := by
    obtain ⟨t', rfl, ht'⟩ := hts.single
    exact ⟨[x t'], hp ht', by rw [List.map_singleton, List.map_singleton, hx]⟩

/-- An expression that another form has spelled with the same tokens. -/
theorem same {g} (h : Movable d f ts [.expr e])
    (hg : ∀ {us e'}, Phrase d f us [.expr e'] → Phrase d g us [.expr e']) :
    Movable d g ts [.expr e] where
  kinds := h.kinds
  moved ts' hts := by
    obtain ⟨e', hp, he⟩ := h.moved_expr hts
    exact ⟨_, hg hp, congrArg (fun e => [Tree.expr e]) he⟩

theorem positional (h : Movable d .named ts [.expr e]) :
    Movable d .argument ts [.argument (.positional e)] where
  kinds := h.kinds
  moved ts' hts := by
    obtain ⟨e', hp, he⟩ := h.moved_expr hts
    exact ⟨_, .positional hp, congrArg (fun e => [Tree.argument (.positional e)]) he⟩

theorem nil (hp : Phrase d f [] []) : Movable d f [] [] where
  kinds := by simp
  moved ts' hts := by
    obtain rfl := hts.nil
    exact ⟨[], hp, rfl⟩

theorem manyCons (h : Movable d f ts [x]) (hs : Movable d (.many f) us xs) :
    Movable d (.many f) (ts ++ us) (x :: xs) where
  kinds := List.forall_mem_append.2 ⟨h.kinds, hs.kinds⟩
  moved ts' hts := by
    obtain ⟨vs, ws, rfl, hvs, hws⟩ := hts.append
    obtain ⟨x', hp, hx⟩ := h.moved_one hvs
    obtain ⟨xs', hps, hxs⟩ := hs.moved ws hws
    exact ⟨x' :: xs', .manyCons hp hps, by rw [List.map_cons, List.map_cons, hx, hxs]⟩

theorem further {t} (ht : t.kind = .op ",") (h : Movable d f ts xs) :
    Movable d (.further f) (t :: ts) xs where
  kinds := List.forall_mem_cons.2 ⟨by rw [ht]; rfl, h.kinds⟩
  moved ts' hts := by
    obtain ⟨t', us, rfl, ht', hus⟩ := hts.cons
    obtain ⟨xs', hp, hxs⟩ := h.moved us hus
    exact ⟨xs', .further (ht'.trans ht) hp, hxs⟩

theorem commas {needed tr} (h : Movable d f ts [x]) (hs : Movable d (.many (.further f)) us xs)
    (htr : Trailing tr) (hneeded : needed = true → us ++ tr ≠ []) :
    Movable d (.commas f needed) (ts ++ us ++ tr) (x :: xs) where
  kinds := List.forall_mem_append.2
    ⟨List.forall_mem_append.2 ⟨h.kinds, hs.kinds⟩, htr.kinds_isSimple⟩
  moved ts' hts := by
    obtain ⟨_, tr', rfl, hts, htr'⟩ := hts.append
    obtain ⟨vs, ws, rfl, hvs, hws⟩ := hts.append
    obtain ⟨x', hp, hx⟩ := h.moved_one hvs
    obtain ⟨xs', hps, hxs⟩ := hs.moved ws hws
    exact ⟨x' :: xs',
      .commas hp hps (htr'.trailing htr) fun hn => (hws.join htr').ne_nil (hneeded hn),
      by rw [List.map_cons, List.map_cons, hx, hxs]⟩

theorem arguments (h : Movable d (.commas .argument false) ts xs) : Movable d .arguments ts xs where
  kinds := h.kinds
  moved ts' hts := by
    obtain ⟨xs', hp, hxs⟩ := h.moved ts' hts
    exact ⟨xs', .arguments hp, hxs⟩

theorem strings {n} {literals : List (StringToken × Span)}
    (h : concatLiterals (rules d n) (spanOf (literals.map stringToken)) literals = some e)
    (he : e.Simple) : Movable d .atom (literals.map stringToken) [.expr e] := by
  have hplain := concatLiterals_simple h he
  have hne : literals ≠ [] := by
    rintro rfl
    cases h
  refine ⟨fun t ht => ?_, fun ts' hts => ?_⟩
  · obtain ⟨l, hl, rfl⟩ := List.mem_map.1 ht
    simp [stringToken, TokenKind.isSimple, TokenKind.isPlain, hplain l hl]
  · obtain ⟨literals', rfl, hsame⟩ := hts.literals
    have hne' : literals' ≠ [] := by
      rintro rfl
      exact hne (List.map_eq_nil_iff.1 hsame.symm)
    have hplain' : ∀ l ∈ literals', l.1.isFormatted = false := by
      intro l' hl'
      obtain ⟨l, hl, heq⟩ := List.mem_map.1 (hsame ▸ List.mem_map_of_mem hl')
      exact heq ▸ hplain l hl
    rw [concatLiterals_eq_plainLiterals hne hplain] at h
    obtain ⟨c, hvalue, rfl⟩ := Option.map_eq_some_iff.1 h
    have hmoved : concatLiterals (rules d n) (spanOf (literals'.map stringToken)) literals'
        = some (.constant (spanOf (literals'.map stringToken)) c) := by
      rw [concatLiterals_eq_plainLiterals hne' hplain', hsame, hvalue]
      rfl
    exact ⟨_, .strings hmoved, rfl⟩

theorem group {o c : Token} (ho : o.kind = .op "(") (h : Movable d .named ts [.expr e])
    (hc : c.kind = .op ")") : Movable d .atom (o :: (ts ++ [c])) [.expr e] where
  kinds := between_isSimple ho h.kinds hc
  moved ts' hts := by
    obtain ⟨o', us', c', rfl, ho', hus, hc'⟩ := hts.between
    obtain ⟨e', hp, he⟩ := h.moved_expr hus
    exact ⟨_, .group (.inl rfl) (ho'.trans ho) hp (hc'.trans hc),
      congrArg (fun e => [Tree.expr e]) he⟩

theorem call {o c : Token} {as : List Argument} {st : ArgState}
    (h : Movable d (.expr Level.atom) ts [.expr e]) (ho : o.kind = .op "(")
    (hs : Movable d .arguments us (as.map .argument)) (hc : c.kind = .op ")")
    (hst : ArgState.empty.addAll as = some st) :
    Movable d (.expr Level.atom) (ts ++ o :: (us ++ [c]))
      [.expr (.call (spanOf (ts ++ o :: (us ++ [c]))) e st.args st.keywords)] where
  kinds := List.forall_mem_append.2 ⟨h.kinds, between_isSimple ho hs.kinds hc⟩
  moved ts' hts := by
    obtain ⟨vs, _, rfl, hvs, hts⟩ := hts.append
    obtain ⟨o', us', c', rfl, ho', hus, hc'⟩ := hts.between
    obtain ⟨e', hp, he⟩ := h.moved_expr hvs
    obtain ⟨as', hps, has⟩ := hs.moved_arguments hus
    obtain ⟨st', hst', hsame⟩ := ArgState.addAll_moved hst has
    refine ⟨_, .call hp (ho'.trans ho) hps (hc'.trans hc) hst', ?_⟩
    simp only [List.map_singleton, Tree.unplaced, Expr.unplaced_call, he, hsame]

theorem inversion {t} (ht : t.kind = .keyword "not")
    (h : Movable d (.expr Level.not) ts [.expr e]) :
    Movable d (.expr Level.not) (t :: ts) [.expr (.unaryOp (spanOf (t :: ts)) .not e)] where
  kinds := List.forall_mem_cons.2 ⟨by rw [ht]; rfl, h.kinds⟩
  moved ts' hts := by
    obtain ⟨t', us, rfl, ht', hus⟩ := hts.cons
    obtain ⟨e', hp, he⟩ := h.moved_expr hus
    exact ⟨_, .inversion (ht'.trans ht) hp,
      congrArg (fun e => [Tree.expr (.unaryOp .nowhere .not e)]) he⟩

theorem operand {t op} (ht : t.kind = .keyword op.text)
    (h : Movable d (.expr (op.level + 1)) ts [.expr e]) :
    Movable d (.operand op) (t :: ts) [.expr e] where
  kinds := List.forall_mem_cons.2 ⟨by rw [ht]; cases op <;> decide, h.kinds⟩
  moved ts' hts := by
    obtain ⟨t', us, rfl, ht', hus⟩ := hts.cons
    obtain ⟨e', hp, he⟩ := h.moved_expr hus
    exact ⟨_, .operand (ht'.trans ht) hp, congrArg (fun e => [Tree.expr e]) he⟩

theorem boolOp {op es} (h : Movable d (.expr (op.level + 1)) ts [.expr e])
    (hs : Movable d (.many (.operand op)) us (es.map .expr)) (hes : es ≠ []) :
    Movable d (.expr op.level) (ts ++ us)
      [.expr (.boolOp (spanOf (ts ++ us)) op (e :: es))] where
  kinds := List.forall_mem_append.2 ⟨h.kinds, hs.kinds⟩
  moved ts' hts := by
    obtain ⟨vs, ws, rfl, hvs, hws⟩ := hts.append
    obtain ⟨e', hp, he⟩ := h.moved_expr hvs
    obtain ⟨es', hps, hall⟩ := hs.moved_exprs hws
    refine ⟨_, .boolOp hp hps ?_, ?_⟩
    · rintro rfl
      rw [unplacedAll_eq_map, unplacedAll_eq_map] at hall
      exact hes (List.map_eq_nil_iff.1 hall.symm)
    · simp only [List.map_singleton, Tree.unplaced, Expr.unplaced, unplacedAll, he, hall]

end Movable

theorem Phrase.movable {d} {f : Form} {ts xs} (h : Phrase d f ts xs) (hf : f.isSimple = true)
    (hxs : ∀ x ∈ xs, x.Simple) : Movable d f ts xs := by
  induction h with
  | manyNil => exact .nil .manyNil
  | manyCons _ _ ih ihs =>
    obtain ⟨hx, hxs⟩ := List.forall_mem_cons.1 hxs
    exact .manyCons (ih hf (List.forall_mem_singleton.2 hx)) (ihs hf hxs)
  | further ht _ ih => exact .further ht (ih hf hxs)
  | commas _ _ htr hneeded ih ihs =>
    obtain ⟨hx, hxs⟩ := List.forall_mem_cons.1 hxs
    exact .commas (ih hf (List.forall_mem_singleton.2 hx)) (ihs hf hxs) htr hneeded
  | single _ ih => exact (ih hf hxs).same .single
  | unstarred _ ih => exact (ih hf hxs).same .unstarred
  | @name t id ht =>
    exact .token (x := fun t => .expr (.name t.span id .load)) (by rw [ht]; rfl)
      (fun ht' => .name (ht'.trans ht)) rfl
  | @constant t word c ht hc =>
    refine .token (x := fun t => .expr (.constant t.span c)) ?_
      (fun ht' => .constant (ht'.trans ht) hc) rfl
    rw [ht]
    unfold keywordConstant? at hc
    split at hc <;> first | decide | cases hc
  | @number t c ht =>
    refine .token (x := fun t => .expr (.constant t.span c)) ?_
      (fun ht' => .number (ht'.trans ht)) rfl
    rw [ht]
    cases hxs _ (List.mem_singleton_self _) <;> rfl
  | strings hc => exact .strings hc (hxs _ (List.mem_singleton_self _))
  | group hform ho hp hc ih =>
    obtain rfl | rfl := hform
    · exact .group ho (ih rfl hxs) hc
    · cases hp <;> cases hxs _ (List.mem_singleton_self _)
  | unnamed _ ih => exact (ih rfl hxs).same .unnamed
  | @positional ts e _ ih =>
    have he : e.Simple := hxs _ (List.mem_singleton_self _)
    exact .positional (ih rfl (List.forall_mem_singleton.2 he))
  | noArguments => exact .nil .noArguments
  | arguments _ ih => exact .arguments (ih rfl hxs)
  | atom _ ih => exact (ih rfl hxs).same .atom
  | call _ ho _ hc hst ihe ihas =>
    obtain ⟨hfunc, hargs, hkeywords⟩ := Expr.Simple.of_call (hxs _ (List.mem_singleton_self _))
    obtain ⟨-, -, has⟩ := ArgState.addAll_simple hst hkeywords hargs
    exact .call (ihe rfl (List.forall_mem_singleton.2 hfunc)) ho
      (ihas rfl (List.forall_mem_map.2 has)) hc hst
  | lift hlow hhigh _ ih => exact (ih rfl hxs).same (.lift hlow hhigh)
  | inversion ht _ ih =>
    cases hxs _ (List.mem_singleton_self _) with
    | not he => exact .inversion ht (ih rfl (List.forall_mem_singleton.2 he))
  | operand ht _ ih => exact .operand ht (ih rfl hxs)
  | boolOp _ _ hes ihe ihes =>
    cases hxs _ (List.mem_singleton_self _) with
    | boolOp hvalues =>
      obtain ⟨he, hall⟩ := List.forall_mem_cons.1 hvalues
      exact .boolOp (ihe rfl (List.forall_mem_singleton.2 he))
        (ihes rfl (List.forall_mem_map.2 hall)) hes
  | sign ht _ _ =>
    cases hxs _ (List.mem_singleton_self _)
    exact absurd ht (signOp?_ne_not _)
  | callGenerator =>
    cases hxs _ (List.mem_singleton_self _) with
    | call _ hargs => cases hargs _ (List.mem_singleton_self _)
  -- the trees of these phrases are not simple
  | several | starred | ellipsis | noTuple | tuple | generator | noList | list | listComp
  | noDict | dict | dictComp | set | setComp | named | starredArgument | namedArgument
  | unpackedArgument | member | subscript | await | power | binary | compare | ifExp | lambda =>
    cases hxs _ (List.mem_singleton_self _)
  -- nor are these forms
  | plainEntry | unpackedEntry | yieldFrom | yieldNothing | yieldValue | targets | condition
  | clause | noBound | bound | noStep | step | slice | starredSlice | plainSlice | index
  | starredIndex | indices | comparison | noAnnot | annot | starredAnnot | noDefault | default
  | slash | bareStar | vararg | kwarg | plain | noParams | lastParam | moreParams => cases hf

end TypeStub.Syntax
