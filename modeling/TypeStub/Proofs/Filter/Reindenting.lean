import TypeStub.Proofs.Filter.Meaning
import TypeStub.Proofs.Grammar.Completeness
import TypeStub.Proofs.Grammar.Transport
import TypeStub.Proofs.Lexing.Indentation
/-!
# Filters with other indentation

The lines of a filter can be indented anew without a change to its condition, if its white space is
plain, no comment runs into its end, and no literal runs over several lines (`read_reindented`). The
tokens keep their kinds, tokens of the same kinds are read as the same expression but for positions,
and a condition has no positions.
-/

namespace TypeStub

namespace Syntax

open Parse Text

/-! ## Texts of one expression -/

section Parsing

variable {d : Dialect} {text : List Char} {e : Expr}

theorem parseExpression_reads (h : parseExpression d text = some e) :
    ∃ ts ends m n, tokenize d .origin false text = some (ts ++ (ends ++ [m]), n) ∧
      Spells d (.list (.expr Level.test)) ts e ∧ (∀ t ∈ ts, isLayout t.kind = false) ∧
      (∀ t ∈ ends, t.kind = .newline) ∧ m.kind = .endMarker := by
  obtain ⟨⟨tokens, n⟩, htokens, h⟩ := Option.bind_eq_some_iff.1 h
  obtain ⟨⟨e', rest⟩, hparse, h⟩ := Option.bind_eq_some_iff.1 h
  obtain ⟨ts, htook, hspells⟩ := elementOrTuple_reads rfl
    (expression_reads (r := rules d (text.length + 4))) _ _ _ hparse
  simp only at h
  split at h
  · next span hend =>
    cases h
    have hrest := List.takeWhile_append_dropWhile (p := fun t : Token => t.kind == .newline)
      (l := rest.tokens)
    rw [hend] at hrest
    have hsplit : tokens = ts ++ rest.tokens := htook.tokens
    refine ⟨ts, _, _, n, by rw [htokens, hsplit, ← hrest], hspells, htook.visible, ?_, rfl⟩
    intro t ht
    exact eq_of_beq (List.all_eq_true.1 List.all_takeWhile t ht)
  · cases h

end Parsing

/-! ## Where lines may be indented -/

def lastLine (text : List Char) : List Char :=
  (text.reverse.takeWhile (· != '\n')).reverse

theorem unfinished_of_lastLine {text} (h : '#' ∉ lastLine text) : Unfinished (text ++ [')']) where
  comments u v huv := by
    rcases List.append_eq_append_iff.1 huv with ⟨w, -, hw⟩ | ⟨w, rfl, hw⟩
    · cases w with
      | nil => exact absurd (List.cons.inj hw).1 (by decide)
      | cons _ w => exact absurd (List.cons.inj hw).2 (by simp)
    · cases w with
      | nil => exact absurd (List.cons.inj hw).1 (by decide)
      | cons c w =>
        cases hw
        -- without a line end behind it, the sharp sign is in the last line
        refine Classical.byContradiction fun hline => h ?_
        have hw : ∀ c ∈ w.reverse, (c != '\n') = true := by
          rintro c hc
          exact bne_iff_ne.2 fun heq => hline (by simpa [heq] using hc)
        rw [lastLine, List.reverse_append, List.reverse_cons, List.append_assoc,
          List.takeWhile_append_of_pos hw]
        simp
  last := by simp

def TokenKind.staysInLine : TokenKind → Bool
  | .string literal => !literal.body.contains '\n'
  | _ => true

/-- Whether the lines of a text that stands between parentheses can be indented anew: its white
space is plain, no comment runs into its end, and no literal runs over several lines. -/
def isIndentable (d : Dialect) (text : List Char) : Bool :=
  (text.all fun c => !isSpace c.toNat || isPlainSpace c) && !(lastLine text).contains '#' &&
    (tokenize d .origin false ('(' :: (text ++ [')']))).all fun found =>
      found.1.all (·.kind.staysInLine)

section Indentable

variable {d : Dialect} {text : List Char}

theorem isPlainSpace_of_isIndentable (h : isIndentable d text = true) :
    ∀ c ∈ text, isSpace c.toNat = true → isPlainSpace c = true := by
  simp only [isIndentable, Bool.and_eq_true, List.all_eq_true, Bool.or_eq_true,
    Bool.not_eq_true'] at h
  intro c hc hspace
  rcases h.1.1 c hc with hno | hplain
  · rw [hspace] at hno
    cases hno
  · exact hplain

theorem unfinished_of_isIndentable (h : isIndentable d text = true) :
    Unfinished (text ++ [')']) := by
  simp only [isIndentable, Bool.and_eq_true] at h
  exact unfinished_of_lastLine (by simpa using h.1.2)

theorem staysInLine_of_isIndentable (h : isIndentable d text = true) {tokens n}
    (htokens : tokenize d .origin false ('(' :: (text ++ [')'])) = some (tokens, n)) :
    ∀ t ∈ tokens, t.kind.staysInLine = true := by
  simp only [isIndentable, htokens, Bool.and_eq_true] at h
  exact List.all_eq_true.1 h.2

theorem lineEnd_of_isIndentable (h : isIndentable d text = true) : '\r' ∉ text ++ [')'] := by
  simp only [List.mem_append, List.mem_singleton, not_or]
  exact ⟨fun hmem => absurd (isPlainSpace_of_isIndentable h '\r' hmem (by decide)) (by decide),
    by decide⟩

end Indentable

theorem TokenKind.inLine {k : TokenKind} (hwritten : k.isWritten = true)
    (hsimple : k.isSimple = true) (hline : k.staysInLine = true) : k.InLine where
  number v hk := by
    subst hk
    simp only [isWritten, isSimple] at hwritten hsimple
    rw [hwritten] at hsimple
    cases hsimple
  literal l hk := by
    subst hk
    simpa [staysInLine] using hline

theorem Lexes.length {g bs text ks} (h : Lexes g bs text ks) : ks.length ≤ text.length := by
  induction h with
  | stop => exact Nat.le_refl _
  | blank _ _ ih | newline _ _ ih =>
    rw [List.length_cons]
    omega
  | join _ _ ih =>
    simp only [List.length_cons]
    omega
  | comment _ _ _ ih =>
    simp only [List.length_cons, List.length_append]
    omega
  | token hscan _ ih =>
    have hlen := scanToken_length hscan
    rw [List.length_cons]
    omega

theorem oneLine_of_ends {ts ends} {m : Token} (hts : ∀ t ∈ ts, isLayout t.kind = false)
    (hends : ∀ t ∈ ends, t.kind = .newline) (hm : m.kind = .endMarker) :
    OneLine ((ts ++ (ends ++ [m])).map (·.kind)) := by
  have htail : ∀ k ∈ (ends ++ [m]).map (·.kind), k.isWritten = false := by
    intro k hk
    obtain ⟨t, ht, rfl⟩ := List.mem_map.1 hk
    rcases List.mem_append.1 ht with ht | ht
    · rw [hends t ht]
      rfl
    · rw [List.mem_singleton.1 ht, hm]
      rfl
  intro u v huv k hk
  rw [List.map_append] at huv
  rcases List.append_eq_append_iff.1 huv with ⟨w, -, hw⟩ | ⟨w, hw, hv⟩
  · exact htail k (hw ▸ List.mem_append_right w (List.mem_cons_of_mem _ hk))
  · cases w with
    | nil =>
      rw [List.nil_append] at hv
      exact htail k (hv ▸ List.mem_cons_of_mem _ hk)
    | cons c w =>
      obtain ⟨rfl, -⟩ := List.cons.inj hv
      obtain ⟨t, ht, hkind⟩ :=
        List.mem_map.1 (hw ▸ List.mem_append_right u List.mem_cons_self)
      have hlayout := hts t ht
      rw [hkind] at hlayout
      cases hlayout

theorem kinds_of_ends {ts ends : List Token} {m : Token} {ks : List TokenKind}
    (hends : ∀ t ∈ ends, t.kind = .newline) (hks : ∀ k ∈ ks, k.isWritten = true)
    (h : (ts ++ (ends ++ [m])).map (·.kind) = ks ++ [.endMarker]) : ts.map (·.kind) = ks := by
  rw [← List.append_assoc, List.map_append, List.map_singleton] at h
  obtain ⟨h, -⟩ := List.append_inj' h rfl
  cases ends with
  | nil => simpa using h
  | cons t ends =>
    have hmem : t.kind ∈ ks := by simp [← h]
    have hwritten := hks _ hmem
    rw [hends t List.mem_cons_self] at hwritten
    cases hwritten

theorem isPlain_of_isSimple {kind : TokenKind} (h : kind.isSimple = true) :
    kind.isPlain = true := by
  cases kind <;> first | rfl | exact h

theorem notMem_reindented {c text} (hblank : c ≠ ' ') (hline : c ≠ '\n')
    (h : c ∉ text ++ [')']) : c ∉ reindented text ++ [')'] := by
  simp only [List.mem_append, not_or] at h ⊢
  refine ⟨fun hmem => ?_, h.2⟩
  rcases mem_reindented hmem with hc | hc | hc
  · exact hblank hc
  · exact hline hc
  · exact h.1 hc

/-- A simple expression between parentheses is the same one when its lines are indented anew. -/
theorem parseExpression_reindented {d : Dialect} (hd : d.typeComments = false)
    (hminor : 7 ≤ d.minor) {text : List Char} {e : Expr}
    (h : parseExpression d ('(' :: (text ++ [')'])) = some e) (he : e.Simple)
    (hlayout : isIndentable d text = true) :
    ∃ e', parseExpression d ('(' :: (reindented text ++ [')'])) = some e' ∧
      e'.unplaced = e.unplaced := by
  obtain ⟨ts, ends, m, n, htokens, hspells, hvisible, hends, hm⟩ := parseExpression_reads h
  obtain ⟨ks, hks, hlexes⟩ := lexes_of_tokenize hd hminor (lineEnd_of_isIndentable hlayout)
    (unfinished_of_isIndentable hlayout) htokens (oneLine_of_ends hvisible hends hm)
  have hwritten : ∀ k ∈ .op "(" :: ks, k.isWritten = true :=
    List.forall_mem_cons.2 ⟨rfl, hlexes.isWritten⟩
  have hkinds : ts.map (·.kind) = .op "(" :: ks := kinds_of_ends hends hwritten hks
  have hmovable := hspells.movable rfl (List.forall_mem_singleton.2 he)
  -- the tokens do not run over line ends, so indenting them anew keeps their kinds
  have hline : ∀ k ∈ ks, k.InLine := by
    intro k hk
    have hmem : k ∈ ts.map (·.kind) := hkinds ▸ List.mem_cons_of_mem _ hk
    obtain ⟨t, ht, rfl⟩ := List.mem_map.1 hmem
    exact TokenKind.inLine (hlexes.isWritten _ hk) (hmovable.kinds t ht)
      (staysInLine_of_isIndentable hlayout htokens t (List.mem_append_left _ ht))
  have hlexes' := hlexes.reindented (isPlainSpace_of_isIndentable hlayout) hline
  have hnull : '\x00' ∉ reindented text ++ [')'] :=
    notMem_reindented (by decide) (by decide) fun hmem =>
      tokenize_null htokens (List.mem_cons_of_mem _ hmem)
  have hreturn : '\r' ∉ reindented text ++ [')'] :=
    notMem_reindented (by decide) (by decide) (lineEnd_of_isIndentable hlayout)
  obtain ⟨ts', m', htokens', hsame, hm'⟩ : ∃ ts' m',
      tokenize d .origin false ('(' :: (reindented text ++ [')'])) = some (ts' ++ [m'], 0) ∧
        SameKinds ts ts' ∧ m'.kind = .endMarker := by
    obtain ⟨tokens', htokens', hkinds'⟩ := tokenize_of_lexes hd hminor hnull hreturn hlexes'
    rw [← List.cons_append, ← hkinds] at hkinds'
    obtain ⟨ts', ms, rfl, hts', hms⟩ := List.map_eq_append_iff.1 hkinds'
    obtain ⟨m', rfl, hm'⟩ := List.map_eq_singleton_iff.1 hms
    exact ⟨ts', m', htokens', hts', hm'⟩
  obtain ⟨e', hspells', he'⟩ := hmovable.moved_expr hsame
  refine ⟨e', parseExpression_accepts htokens' hm' hspells' ⟨?_, ?_⟩, he'⟩
  · have hcount : ts'.length = ks.length + 1 := by
      simpa [hkinds] using congrArg List.length hsame
    have hlen := hlexes'.length
    rw [List.length_cons]
    omega
  · intro t ht
    obtain ⟨t', ht', hkind⟩ := List.mem_map.1 (hsame ▸ List.mem_map_of_mem ht)
    exact isPlain_of_isSimple (hkind ▸ hmovable.kinds t' ht')

end Syntax

namespace Filter

open Syntax

namespace Condition

variable {e e' : Expr} {c : Condition}

theorem simple_of_forall₂ {es : List Expr} {cs : List Condition}
    (h : List.Forall₂ (fun e (_ : Condition) => e.Simple) es cs) : ∀ e ∈ es, e.Simple := by
  induction h with
  | nil => simp
  | cons he _ ih => exact List.forall_mem_cons.2 ⟨he, ih⟩

theorem simple_of_ofExpr? (h : ofExpr? e = some c) : e.Simple := by
  have hclosed : Closed fun e _ => e.Simple :=
    { const := .bool
      asks := fun _ => .call .name (List.forall_mem_singleton.2 .str)
      not := .not
      and := fun h => .boolOp (simple_of_forall₂ h)
      or := fun h => .boolOp (simple_of_forall₂ h) }
  exact hclosed.ofExpr? e h

theorem ofExprs?_of_forall₂ {es es' cs}
    (h : List.Forall₂ (fun e c => ∀ e', e'.unplaced = e.unplaced → ofExpr? e' = some c) es cs)
    (hes : unplacedAll es' = unplacedAll es) : ofExprs? es' = some cs := by
  rw [unplacedAll_eq_map, unplacedAll_eq_map] at hes
  induction h generalizing es' with
  | nil =>
    obtain rfl := List.map_eq_nil_iff.1 hes
    rfl
  | cons hc _ ih =>
    obtain ⟨e', es', rfl, he', hes'⟩ := List.map_eq_cons_iff.1 hes
    rw [ofExprs?, hc e' he', ih hes']
    rfl

/-- A condition does not depend on where its expression stands. -/
theorem ofExpr?_unplaced (h : ofExpr? e = some c) (he : e'.unplaced = e.unplaced) :
    ofExpr? e' = some c := by
  have hclosed : Closed fun e c => ∀ e', e'.unplaced = e.unplaced → ofExpr? e' = some c :=
    { const := fun e' he => by
        obtain ⟨_, rfl⟩ := constant_of_unplaced he.symm
        rfl
      asks := fun hsubject e' he => by
        obtain ⟨_, f, a, rfl, hf, ha⟩ := Expr.eq_call_of_unplaced he
        obtain ⟨_, rfl⟩ := Expr.eq_name_of_unplaced hf
        obtain ⟨_, rfl⟩ := constant_of_unplaced ha.symm
        rw [ofExpr?, hsubject]
        rfl
      not := fun hc e' he => by
        obtain ⟨_, inner, rfl, hinner⟩ := Expr.eq_unaryOp_of_unplaced he
        rw [ofExpr?, hc inner hinner]
        rfl
      and := fun hcs e' he => by
        obtain ⟨_, inner, rfl, hinner⟩ := Expr.eq_boolOp_of_unplaced he
        rw [ofExpr?, ofExprs?_of_forall₂ hcs hinner]
        rfl
      or := fun hcs e' he => by
        obtain ⟨_, inner, rfl, hinner⟩ := Expr.eq_boolOp_of_unplaced he
        rw [ofExpr?, ofExprs?_of_forall₂ hcs hinner]
        rfl }
  exact hclosed.ofExpr? e h e' he

end Condition

/-! ## Filters -/

def dialect : Dialect := { minor := newestMinor, typeComments := false }

theorem readExpr_eq (text : List Char) :
    Source.readExpr { text := [], path := "", version := none, typeComments := false } text
      = (parseExpression dialect text).elim (.error .malformed) .ok := by
  simp only [Source.readExpr, dialectOf, bind, Except.bind, dialect]
  cases parseExpression { minor := newestMinor, typeComments := false } text <;> rfl

theorem read_eq_ok {raw f} : read raw = .ok f ↔
      f.raw = raw ∧ parseExpression dialect ('(' :: (raw.plain.toList ++ [')'])) = some f.expr ∧
        Condition.ofExpr? f.expr = some f.condition := by
  have htext : ("(" ++ raw.plain ++ ")").toList = '(' :: (raw.plain.toList ++ [')']) := by
    simp
  obtain ⟨fraw, fexpr, fcondition⟩ := f
  simp only [read, htext, readExpr_eq]
  cases parseExpression dialect ('(' :: (raw.plain.toList ++ [')'])) with
  | none => simp [throw, throwThe, MonadExceptOf.throw]
  | some e =>
    simp only [Option.elim_some, Option.some.injEq]
    cases hcondition : Condition.ofExpr? e with
    | none =>
      have hrefused : ¬(e = fexpr ∧ Condition.ofExpr? fexpr = some fcondition) := by
        rintro ⟨rfl, h⟩
        rw [hcondition] at h
        cases h
      simp only [hrefused, and_false, iff_false]
      cases e.render <;> simp [throw, throwThe, MonadExceptOf.throw]
    | some c =>
      simp only [pure, Except.pure, Except.ok.injEq, Filter.mk.injEq]
      constructor
      · rintro ⟨rfl, rfl, rfl⟩
        exact ⟨rfl, rfl, hcondition⟩
      · rintro ⟨rfl, rfl, h⟩
        exact ⟨rfl, rfl, Option.some.inj (hcondition.symm.trans h)⟩

theorem read_reindented {text f} (h : read (.expr text) = .ok f)
    (hlayout : isIndentable dialect text.toList = true) :
    ∃ f', read (.expr (String.ofList (Text.reindented text.toList))) = .ok f' ∧
      f'.condition = f.condition := by
  obtain ⟨-, hparse, hcondition⟩ := read_eq_ok.1 h
  obtain ⟨e', hparse', he'⟩ := parseExpression_reindented rfl (by decide) hparse
    (Condition.simple_of_ofExpr? hcondition) hlayout
  refine ⟨⟨_, e', f.condition⟩, read_eq_ok.2 ⟨rfl, ?_, ?_⟩, rfl⟩
  · simpa [FilterText.plain] using hparse'
  · exact Condition.ofExpr?_unplaced hcondition he'

end Filter

end TypeStub
