import TypeStub.Proofs.Lexing.Scanning
import TypeStub.Syntax.Parser
/-!
# Where tokens stand

The cursor of the lexer always stands at the place that the characters in front of it lead to, and
every token that is not layout covers a stretch of the text that starts and ends within a line.
-/

namespace TypeStub.Syntax

open TypeStub.Text

/-- Line and column behind `text`, if it starts at the given ones. -/
def advance (start : Nat × Nat) (text : List Char) : Nat × Nat :=
  text.foldl (fun (line, col) ch => if ch == '\n' then (line + 1, 0) else (line, col + ch.utf8Size))
    start

theorem advance_append (start : Nat × Nat) (a b : List Char) :
    advance start (a ++ b) = advance (advance start a) b :=
  List.foldl_append

@[simp] theorem advance_nil (start : Nat × Nat) : advance start [] = start := rfl

theorem advance_lineEnd (line col : Nat) (text : List Char) :
    advance (line, col) ('\n' :: text) = advance (line + 1, 0) text := rfl

theorem advance_cons {c} (hc : c ≠ '\n') (line col : Nat) (text : List Char) :
    advance (line, col) (c :: text) = advance (line, col + c.utf8Size) text := by
  simp [advance, hc]

/-- Lines count from the start; columns count from it only within its own line. -/
theorem advance_shift (text : List Char) : ∀ line col : Nat, (advance (1, 0) text).1 ≥ 1 ∧
    advance (line + 1, col) text
      = (line + (advance (1, 0) text).1,
        if (advance (1, 0) text).1 = 1 then col + (advance (1, 0) text).2
        else (advance (1, 0) text).2) := by
  induction text with
  | nil => simp [advance]
  | cons c text ih =>
    intro line col
    by_cases hc : c = '\n'
    · subst hc
      obtain ⟨hpos, hone⟩ := ih 1 0
      obtain ⟨_, hshift⟩ := ih (line + 1) 0
      rw [advance_lineEnd, advance_lineEnd, hone, hshift]
      have hne : ¬ 1 + (advance (1, 0) text).1 = 1 := by omega
      refine ⟨by simp only; omega, ?_⟩
      simp only [hne, if_false, Prod.mk.injEq, Nat.zero_add]
      exact ⟨by omega, trivial⟩
    · obtain ⟨hpos, hone⟩ := ih 0 c.utf8Size
      obtain ⟨_, hshift⟩ := ih line (col + c.utf8Size)
      rw [advance_cons hc, advance_cons hc, hshift, Nat.zero_add, hone]
      refine ⟨by simpa using hpos, ?_⟩
      by_cases h1 : (advance (1, 0) text).1 = 1
      · simp [h1]; omega
      · simp [h1]

/-! ## Cursors -/

/-- The cursor stands where the characters in front of it lead. -/
def Cursor.At (whole : List Char) (c : Cursor) : Prop :=
  ∃ before, whole = before ++ c.rest ∧ (c.line, c.col) = advance (1, 0) before

theorem Cursor.past_place (c : Cursor) (taken rest : List Char) :
    ((c.past taken rest).line, (c.past taken rest).col) = advance (c.line, c.col) taken := rfl

@[simp] theorem Cursor.past_rest (c : Cursor) (taken rest : List Char) :
    (c.past taken rest).rest = rest := rfl

variable {whole : List Char} {o : LexOptions} {place : Cursor} {s : LexState} {tokens : List Token}
  {step : LexStep}

theorem Cursor.At.past {taken rest} {c : Cursor} (h : c.At whole)
    (htaken : c.rest = taken ++ rest) : (c.past taken rest).At whole := by
  obtain ⟨before, hwhole, hplace⟩ := h
  refine ⟨before ++ taken, by simp [hwhole, htaken], ?_⟩
  rw [Cursor.past_place, advance_append, hplace]

/-! ## Tokens -/

/-- A token covers a stretch of the text that starts and ends within a line. -/
structure Lexeme (whole : List Char) (t : Token) : Prop where
  covers : ∃ before text after, whole = before ++ text ++ after ∧ Solid text ∧
    (t.span.line, t.span.col) = advance (1, 0) before ∧
    (t.span.endLine, t.span.endCol) = advance (1, 0) (before ++ text)
  number : ∀ c, t.kind = .number c → c.isNumber = true

/-- A token of the layout, or one that covers a stretch of the text. -/
def Sits (whole : List Char) (t : Token) : Prop :=
  Parse.isLayout t.kind = true ∨ Lexeme whole t

/-- What the lexer is asked when a whole source is read: places count from its start. -/
def LexOptions.FromStart (o : LexOptions) : Prop :=
  o.line = 1 ∧ o.col = 0

theorem tokenAt_lexeme (ho : o.FromStart) {taken rest} (hplace : place.At whole)
    (htaken : place.rest = taken ++ rest) (hsolid : Solid taken) {kind : TokenKind}
    (hnumber : ∀ c, kind = .number c → c.isNumber = true) :
    Lexeme whole (tokenAt o kind place (place.past taken rest)) := by
  obtain ⟨before, hwhole, hat⟩ := hplace
  refine ⟨⟨before, taken, rest, by simp [hwhole, htaken], hsolid, ?_, ?_⟩, hnumber⟩
  · simp only [tokenAt, ho.1, ho.2, ite_self, Nat.add_zero, Nat.add_sub_cancel_left]
    exact hat
  · simp only [tokenAt, ho.1, ho.2, ite_self, Nat.add_zero, Nat.add_sub_cancel_left]
    rw [Cursor.past_place, advance_append, hat]

/-- A step hands on a cursor that stands right, and tokens that sit in the text. -/
def LexStep.Sits (whole : List Char) : LexStep → Prop
  | .more tokens next => next.cursor.At whole ∧ ∀ t ∈ tokens, Syntax.Sits whole t
  | .done tokens => ∀ t ∈ tokens, Syntax.Sits whole t

theorem measureIndent_at {cs} {cursor : Cursor} {col alt fixed col' alt'}
    (hcursor : cursor.At whole) (hrest : cursor.rest = cs)
    (h : measureIndent cursor col alt fixed cs = some (col', alt', place)) : place.At whole := by
  fun_induction measureIndent cursor col alt fixed cs with
  | case1 cursor col alt fixed rest ih =>
    exact ih (hcursor.past (show cursor.rest = [' '] ++ rest from hrest)) rfl h
  | case2 cursor col alt fixed rest ih =>
    exact ih (hcursor.past (show cursor.rest = ['\t'] ++ rest from hrest)) rfl h
  | case3 cursor col alt fixed rest ih =>
    exact ih (hcursor.past (show cursor.rest = ['\x0c'] ++ rest from hrest)) rfl h
  | case4 cursor col alt fixed c rest ih =>
    exact ih (hcursor.past (show cursor.rest = ['\\', '\n'] ++ c :: rest from hrest)) rfl h
  | case5 => cases h
  | case6 | case7 =>
    obtain ⟨_, _, rfl⟩ := by simpa using h
    exact hcursor

/-! ## Comments -/

theorem takeComment_after (o : LexOptions) (place : Cursor) : (takeComment o place).2
      = place.past (place.rest.takeWhile (· != '\n')) (place.rest.dropWhile (· != '\n')) := by
  unfold takeComment
  simp only
  split
  · split <;> rfl
  · rfl

theorem takeComment_ne_nil {kind} (h : (takeComment o place).1 = some kind) :
    place.rest.takeWhile (· != '\n') ≠ [] := by
  intro hnil
  unfold takeComment at h
  simp only [hnil, typeCommentText?, ite_self] at h
  cases h

theorem takeComment_at (o : LexOptions) (hplace : place.At whole) :
    (takeComment o place).2.At whole := by
  rw [takeComment_after]
  exact hplace.past List.takeWhile_append_dropWhile.symm

theorem takeComment_sits (ho : o.FromStart) {kind} (hplace : place.At whole)
    (h : (takeComment o place).1 = some kind) :
    Sits whole (tokenAt o kind place (takeComment o place).2) := by
  have hnumber : ∀ c, kind = .number c → c.isNumber = true := by
    rintro c rfl
    unfold takeComment at h
    grind
  have hline : '\n' ∉ place.rest.takeWhile (· != '\n') := fun hmem => by
    simpa using List.all_eq_true.1 List.all_takeWhile _ hmem
  rw [takeComment_after]
  exact .inr (tokenAt_lexeme ho hplace List.takeWhile_append_dropWhile.symm
    (.of_notMem (takeComment_ne_nil h) hline) hnumber)

theorem lineEnd_at {after : Cursor} (hafter : after.At whole) : (match after.rest with
      | '\n' :: rest => { s with cursor := after.past ['\n'] rest, atLineStart := true }
      | _ => { s with cursor := after, atLineStart := false } : LexState).cursor.At whole := by
  split
  · next rest hrest => exact hafter.past hrest
  · exact hafter

theorem blankLine_sits (ho : o.FromStart) (hplace : place.At whole) :
    (blankLine o s place).Sits whole := by
  have hafter := takeComment_at o hplace
  have htoken := fun kind (h : (takeComment o place).1 = some kind) =>
    takeComment_sits ho hplace h
  unfold blankLine
  revert hafter htoken
  obtain ⟨kind, after⟩ := takeComment o place
  intro hafter htoken
  simp only at hafter htoken ⊢
  split
  · next text =>
    exact ⟨hafter, by simpa using htoken _ rfl⟩
  · next kind _ =>
    exact ⟨lineEnd_at hafter, by simpa using htoken _ rfl⟩
  · exact ⟨lineEnd_at hafter, by simp⟩

/-! ## Steps -/

theorem indentTokens_layout {col alt stack stack'}
    (h : indentTokens o place col alt stack = some (tokens, stack')) :
    ∀ t ∈ tokens, Parse.isLayout t.kind = true := by
  unfold indentTokens at h
  split at h
  · cases h
  · split at h
    · split at h
      · obtain ⟨rfl, _⟩ := by simpa using h
        simp
      · cases h
    · split at h
      · split at h
        · cases h
        · obtain ⟨rfl, _⟩ := by simpa using h
          simp [tokenAt, Parse.isLayout]
      · obtain ⟨⟨n, stack''⟩, _, heq⟩ := Option.map_eq_some_iff.1 h
        obtain ⟨rfl, _⟩ := Prod.mk.inj heq
        intro t ht
        rw [List.eq_of_mem_replicate ht]
        rfl

theorem lexLineStart_sits (ho : o.FromStart) (hs : s.cursor.At whole)
    (h : lexLineStart o s = some step) : step.Sits whole := by
  unfold lexLineStart at h
  obtain ⟨⟨col, alt, place⟩, hindent, h⟩ := Option.bind_eq_some_iff.1 h
  have hplace : place.At whole := measureIndent_at hs rfl hindent
  simp only at h
  split at h
  iterate 2
    · cases h
      exact blankLine_sits ho hplace
  · split at h
    · obtain ⟨⟨tokens, indents⟩, htokens, h⟩ := Option.bind_eq_some_iff.1 h
      cases h
      exact ⟨hplace, fun t ht => .inl (indentTokens_layout htokens t ht)⟩
    · cases h
      exact ⟨hplace, by simp⟩

theorem lexToken_sits (ho : o.FromStart) (hplace : place.At whole)
    (h : lexToken o s place = some step) : step.Sits whole := by
  rw [lexToken_eq] at h
  obtain ⟨t, hscan, rfl⟩ := Option.map_eq_some_iff.1 h
  obtain ⟨htaken, hsolid⟩ := (scanToken_spec hscan).split
  refine ⟨hplace.past htaken, ?_⟩
  refine List.forall_mem_singleton.2 (.inr (tokenAt_lexeme ho hplace htaken hsolid fun c hc => ?_))
  simpa [hc, TokenKind.isWritten] using (scanToken_spec hscan).isWritten

theorem lexInLine_sits (ho : o.FromStart) (hs : s.cursor.At whole) (h : lexInLine o s = some step) :
    step.Sits whole := by
  have hplace : (s.cursor.past (s.cursor.rest.takeWhile isLineBlank)
      (s.cursor.rest.dropWhile isLineBlank)).At whole :=
    hs.past List.takeWhile_append_dropWhile.symm
  unfold lexInLine at h
  simp only at h
  generalize s.cursor.past (s.cursor.rest.takeWhile isLineBlank)
    (s.cursor.rest.dropWhile isLineBlank) = place at h hplace
  split at h
  · split at h
    · cases h
      simp [LexStep.Sits, Sits, tokenAt, Parse.isLayout]
    · cases h
  · cases h
    refine ⟨takeComment_at o hplace, fun t ht => ?_⟩
    obtain ⟨kind, hkind, rfl⟩ := List.mem_map.1 ht
    exact takeComment_sits ho hplace (Option.mem_toList.1 hkind)
  · next rest hrest =>
    have hafter : (place.past ['\n'] rest).At whole := hplace.past hrest
    split at h
    · cases h
      exact ⟨hafter, by simp [Sits, tokenAt, Parse.isLayout]⟩
    · cases h
      exact ⟨hafter, by simp⟩
  · next rest hrest =>
    split at h
    · next c after =>
      cases h
      exact ⟨hplace.past hrest, by simp⟩
    · cases h
  · exact lexToken_sits ho hplace h

theorem lexStep_sits (ho : o.FromStart) (hs : s.cursor.At whole) (h : lexStep o s = some step) :
    step.Sits whole := by
  unfold lexStep at h
  split at h
  · exact lexLineStart_sits ho hs h
  · exact lexInLine_sits ho hs h

theorem lexFrom_sits {o} (ho : o.FromStart) {whole} :
    ∀ {fuel : Nat} {s : LexState} {tokens : List Token}, s.cursor.At whole →
      lexFrom o fuel s = some tokens → ∀ t ∈ tokens, Sits whole t
  | 0, _, _, _, h => by cases h
  | fuel + 1, s, tokens, hs, h => by
    unfold lexFrom at h
    split at h
    · cases h
    · next last hstep =>
      cases h
      exact lexStep_sits ho hs hstep
    · next first next hstep =>
      obtain ⟨hnext, hfirst⟩ := lexStep_sits ho hs hstep
      obtain ⟨more, hmore, rfl⟩ := Option.map_eq_some_iff.1 h
      intro t ht
      rcases List.mem_append.1 ht with ht | ht
      · exact hfirst t ht
      · exact lexFrom_sits ho hnext hmore t ht

theorem lex_sits (ho : o.FromStart) (h : lex o whole = some tokens) :
    ∀ t ∈ tokens, Sits whole t :=
  lexFrom_sits ho ⟨[], rfl, rfl⟩ h

/-! ## Whole texts -/

theorem Sits.renamed {t} (h : Sits whole t) (hkind : Parse.isLayout t.kind = false)
    (name : String) : Sits whole { t with kind := .name name } := by
  rcases h with h | h
  · rw [hkind] at h
    cases h
  · exact .inr ⟨h.covers, nofun⟩

/-- Making names of words moves no token. -/
theorem demoteAsync_sits {s} (h : ∀ t ∈ tokens, Sits whole t) :
    ∀ t ∈ demoteAsync s tokens, Sits whole t := by
  induction tokens generalizing s with
  | nil => simp [demoteAsync]
  | cons u rest ih =>
    have hrest : ∀ {s : AsyncState}, ∀ t ∈ demoteAsync s rest, Sits whole t :=
      ih fun t ht => h t (List.mem_cons_of_mem _ ht)
    have hu : Sits whole u := h u List.mem_cons_self
    have hcons : ∀ {s : AsyncState} {u' : Token}, Sits whole u' →
        ∀ t ∈ u' :: demoteAsync s rest, Sits whole t :=
      fun hu' => List.forall_mem_cons.2 ⟨hu', hrest⟩
    unfold demoteAsync
    simp only
    generalize (if s.leaves u.kind then { s with inside := none } else s : AsyncState) = s'
    split
    · exact hcons hu
    · exact hcons hu
    · exact hcons hu
    · exact hcons hu
    · next text hkind =>
      have hname := hu.renamed (by simp [hkind, Parse.isLayout])
      split
      · exact hcons hu
      · split
        · exact hcons (hname _)
        · split
          · split
            · exact hcons hu
            · exact hcons (hname _)
          · exact hcons hu
    · exact hcons hu

/-- A text without carriage returns has its line ends in one form already. -/
theorem unifyLines_self {text} (h : '\r' ∉ text) : unifyLines false text = text := by
  fun_induction unifyLines false text with
  | case1 hclose => cases hclose
  | case2 => rfl
  | case3 => rfl
  | case4 | case5 | case6 | case7 | case8 => simp at h
  | case9 c rest _ _ _ _ _ ih => rw [ih fun hmem => h (by simp [hmem])]

theorem tokenize_sits {d closeLine text n}
    (h : tokenize d .origin closeLine text = some (tokens, n)) :
    ∀ t ∈ tokens, Sits (unifyLines closeLine text) t := by
  unfold tokenize at h
  simp only at h
  split at h
  · cases h
  · obtain ⟨lexed, hlex, h⟩ := Option.bind_eq_some_iff.1 h
    have hlexed : ∀ t ∈ lexed, Sits (unifyLines closeLine text) t :=
      lex_sits ⟨rfl, rfl⟩ hlex
    have hplain : ∀ t ∈ lexed.filter (·.kind != .typeIgnore),
      Sits (unifyLines closeLine text) t :=
      fun t ht => hlexed t (List.mem_filter.1 ht).1
    obtain ⟨rfl, _⟩ := Prod.mk.inj (Option.some.inj h)
    split
    · exact demoteAsync_sits hplain
    · exact hplain

end TypeStub.Syntax
