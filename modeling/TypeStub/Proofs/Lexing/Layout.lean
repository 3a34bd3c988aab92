import TypeStub.Proofs.Lexing.Positions
/-!
# Tokens apart from their places

Which kinds of tokens a text has, without the places where they stand. `Lexes` is said of one
logical line, which may run over several lines of the text within brackets. The lexer finds the
kinds that `Lexes` gives (`lexFrom_of_lexes`), and gives no others (`lexes_of_lexFrom`).
-/

namespace TypeStub.Syntax

open TypeStub.Text

/-- `Lexes g bs text ks`: behind the brackets `bs` that are still open, a logical line goes on with
`text` to its end, and the tokens there have the kinds `ks`. -/
inductive Lexes (g : Bool) : (brackets text : List Char) → List TokenKind → Prop
  | stop : Lexes g [] [] []
  | blank {bs r ks c} :
      isLineBlank c = true → Lexes g bs r ks → Lexes g bs (c :: r) ks
  | newline {bs r ks} :
      bs ≠ [] → Lexes g bs r ks → Lexes g bs ('\n' :: r) ks
  | join {bs r ks} :
      r ≠ [] → Lexes g bs r ks → Lexes g bs ('\\' :: '\n' :: r) ks
  | comment {bs text r ks} :
      bs ≠ [] → '\n' ∉ text → Lexes g bs r ks → Lexes g bs ('#' :: (text ++ '\n' :: r)) ks
  | token {bs cs ks t} :
      scanToken g bs cs = some t → Lexes g t.brackets t.rest ks → Lexes g bs cs (t.kind :: ks)

/-- A character that stands between tokens and starts none. -/
def isGap (c : Char) : Bool :=
  isLineBlank c || c == '\n' || c == '#' || c == '\\'

variable {r bs text : List Char} {g : Bool} {o : LexOptions} {s : LexState} {ks : List TokenKind}
  {tokens : List Token}

theorem scanOperator_none {c} (h : ∀ op ∈ operators, op.toList.head? ≠ some c) :
    scanOperator (c :: r) = none := by
  rw [scanOperator, List.findSome?_eq_none_iff]
  intro op hop
  rw [Option.map_eq_none_iff]
  cases hdrop : dropPrefix? op.toList (c :: r) with
  | none => rfl
  | some rest =>
    have hsplit := dropPrefix?_split hdrop
    cases hchars : op.toList with
    | nil => exact absurd hchars (operators_solid op hop).1
    | cons a more =>
      rw [hchars] at hsplit
      exact absurd (by rw [hchars, (List.cons.inj hsplit).1]; rfl) (h op hop)

theorem scanToken_gap {c} (h : isGap c = true) : scanToken g bs (c :: r) = none := by
  have hchar : c = ' ' ∨ c = '\t' ∨ c = '\x0c' ∨ c = '\n' ∨ c = '#' ∨ c = '\\' := by
    simpa [isGap, isLineBlank, or_assoc] using h
  have hscan : scanOperator (c :: r) = none := by
    refine scanOperator_none ?_
    rcases hchar with rfl | rfl | rfl | rfl | rfl | rfl <;> decide
  rcases hchar with rfl | rfl | rfl | rfl | rfl | rfl <;>
    simp [scanToken, scanString, scanWord, hscan, isAsciiNameStart, isDigit]

/-! ## Where the lexer stands -/

/-- The lexer is at the start of a line or not, with some brackets open and some text left. -/
structure LexState.Stands (s : LexState) (lineStart : Bool) (brackets text : List Char) : Prop where
  line : s.atLineStart = lineStart
  brackets : s.brackets = brackets
  text : s.cursor.rest = text

/-- With enough steps the lexer gives tokens of the kinds `ks` from a state on. -/
def Yields (o : LexOptions) (s : LexState) (steps : Nat) (ks : List TokenKind) : Prop :=
  ∀ fuel, steps ≤ fuel → ∃ tokens, lexFrom o fuel s = some tokens ∧
    tokens.map (·.kind) = ks

theorem Yields.mono {n m} (h : Yields o s n ks) (hnm : n ≤ m) : Yields o s m ks :=
  fun fuel hfuel => h fuel (Nat.le_trans hnm hfuel)

theorem Yields.step {next n} (h : Yields o next n ks)
    (hstep : lexStep o s = some (.more tokens next)) :
    Yields o s (n + 1) (tokens.map (·.kind) ++ ks) := by
  intro fuel hfuel
  obtain ⟨fuel, rfl⟩ := Nat.exists_eq_succ_of_ne_zero (by omega : fuel ≠ 0)
  obtain ⟨more, hmore, hks⟩ := h fuel (by omega)
  exact ⟨tokens ++ more, by simp [lexFrom, hstep, hmore], by simp [hks]⟩

/-- States with the same next step give the same tokens. -/
theorem lexFrom_congr {s'} (h : lexStep o s = lexStep o s') (fuel : Nat) :
    lexFrom o fuel s = lexFrom o fuel s' := by
  cases fuel with
  | zero => rfl
  | succ fuel => rw [lexFrom, lexFrom, h]

theorem Yields.congr {s' n} (h : Yields o s' n ks) (hstep : lexStep o s = lexStep o s') :
    Yields o s n ks := by
  intro fuel hfuel
  rw [lexFrom_congr hstep]
  exact h fuel hfuel

/-! ## What the next step does -/

theorem Cursor.past_nil (c : Cursor) : c.past [] c.rest = c := rfl

theorem Cursor.past_past (c : Cursor) (a b mid rest : List Char) :
    (c.past a mid).past b rest = c.past (a ++ b) rest := by
  simp [Cursor.past]

section Steps

variable {o : LexOptions} {s : LexState} {lineStart : Bool} {bs r : List Char} {c : Char}

def indentEnd (cursor : Cursor) : Option Cursor :=
  (measureIndent cursor 0 0 0 cursor.rest).map (·.2.2)

def lineStep (o : LexOptions) (s : LexState) (place : Cursor) : LexStep :=
  match place.rest with
  | '#' :: _ | '\n' :: _ => blankLine o s place
  | _ => .more [] { s with cursor := place, atLineStart := false }

/-- Within brackets the indentation of a line only says where the line goes on. -/
theorem lexLineStart_inside (h : s.brackets ≠ []) :
    lexLineStart o s = (indentEnd s.cursor).map (lineStep o s) := by
  unfold lexLineStart indentEnd lineStep
  cases measureIndent s.cursor 0 0 0 s.cursor.rest with
  | none => rfl
  | some x =>
    obtain ⟨col, alt, place⟩ := x
    simp only [Option.bind_eq_bind, Option.bind_some, Option.map_some]
    split <;> simp [*]

theorem measureIndent_place (cursor : Cursor) (cs : List Char)
    (col alt fixed col' alt' fixed' : Nat) : (measureIndent cursor col alt fixed cs).map (·.2.2)
      = (measureIndent cursor col' alt' fixed' cs).map (·.2.2) := by
  fun_induction measureIndent cursor col alt fixed cs generalizing col' alt' fixed' with
  | case1 _ _ _ _ _ ih | case2 _ _ _ _ _ ih | case3 _ _ _ _ _ ih | case4 _ _ _ _ _ _ ih =>
    rw [measureIndent]
    exact ih ..
  | case5 cursor col alt fixed rest h =>
    rw [measureIndent]
    intro c more hrest
    exact h c more hrest
  | case6 | case7 =>
    unfold measureIndent
    split <;> grind

theorem indentEnd_blank {cursor} (hc : isLineBlank c = true) (h : cursor.rest = c :: r) :
    indentEnd cursor = indentEnd (cursor.past [c] r) := by
  have hchar : c = ' ' ∨ c = '\t' ∨ c = '\x0c' := by simpa [isLineBlank, or_assoc] using hc
  unfold indentEnd
  rw [h]
  rcases hchar with rfl | rfl | rfl
  all_goals
    rw [measureIndent]
    exact measureIndent_place ..

theorem indentEnd_join {cursor} (hr : r ≠ []) (h : cursor.rest = '\\' :: '\n' :: r) :
    indentEnd cursor = indentEnd (cursor.past ['\\', '\n'] r) := by
  obtain ⟨d, more, rfl⟩ := List.exists_cons_of_ne_nil hr
  unfold indentEnd
  rw [h, measureIndent]
  exact measureIndent_place ..

theorem indentEnd_self {cursor}
    (h : ∀ c ∈ cursor.rest.head?, isLineBlank c = false ∧ c ≠ '\\') :
    indentEnd cursor = some cursor := by
  unfold indentEnd measureIndent
  split <;> simp_all [isLineBlank]

def LexState.past (s : LexState) (taken rest : List Char) : LexState :=
  { s with cursor := s.cursor.past taken rest }

theorem LexState.Stands.past {taken rest text} (hs : s.Stands lineStart bs text) :
    (s.past taken rest).Stands lineStart bs rest :=
  ⟨hs.line, hs.brackets, rfl⟩

theorem lexStep_lineStart (hline : s.atLineStart = true) (hin : s.brackets ≠ []) :
    lexStep o s = (indentEnd s.cursor).map (lineStep o s) := by
  rw [lexStep, if_pos hline, lexLineStart_inside hin]

theorem lexStep_inLine (hline : s.atLineStart = false) : lexStep o s = lexInLine o s := by
  rw [lexStep, hline, if_neg Bool.false_ne_true]

theorem lexStep_blank (hs : s.Stands lineStart bs (c :: r)) (hin : lineStart = true → bs ≠ [])
    (hc : isLineBlank c = true) : lexStep o s = lexStep o (s.past [c] r) := by
  obtain ⟨rfl, rfl, htext⟩ := hs
  cases hline : s.atLineStart with
  | true =>
    have hpast : (s.past [c] r).atLineStart = true := hline
    rw [lexStep_lineStart hline (hin hline), lexStep_lineStart hpast (hin hline),
      indentEnd_blank hc htext]
    rfl
  | false =>
    have hpast : (s.past [c] r).atLineStart = false := hline
    rw [lexStep_inLine hline, lexStep_inLine hpast]
    unfold lexInLine
    simp only [htext, LexState.past, Cursor.past_past, List.takeWhile_cons_of_pos hc,
      List.dropWhile_cons_of_pos hc]
    rfl

/-- Within brackets the end of a line is passed over. -/
theorem lexStep_newline (hs : s.Stands lineStart bs ('\n' :: r)) (hin : bs ≠ []) :
    ∃ next, lexStep o s = some (.more [] next) ∧ next.Stands true bs r := by
  obtain ⟨rfl, rfl, htext⟩ := hs
  refine ⟨{ s.past ['\n'] r with atLineStart := true }, ?_, rfl, rfl, rfl⟩
  cases hline : s.atLineStart with
  | true =>
    rw [lexStep_lineStart hline hin, indentEnd_self (by simp [htext, isLineBlank])]
    simp [lineStep, htext, blankLine, takeComment, typeCommentText?, Cursor.past, LexState.past]
  | false =>
    rw [lexStep_inLine hline]
    simp [lexInLine, htext, isLineBlank, Cursor.past, LexState.past, hin]

theorem lexStep_comment {text} (ho : o.typeComments = false)
    (hs : s.Stands lineStart bs ('#' :: (text ++ '\n' :: r))) (hin : lineStart = true → bs ≠ [])
    (hline : '\n' ∉ text) : ∃ next, lexStep o s = some (.more [] next) ∧
      next.Stands lineStart bs (if lineStart then r else '\n' :: r) := by
  obtain ⟨rfl, rfl, htext⟩ := hs
  have hcomment : takeComment o s.cursor
      = (none, s.cursor.past ('#' :: text) ('\n' :: r)) := by
    have htake : s.cursor.rest.takeWhile (· != '\n') = '#' :: text := by
      rw [htext, ← List.cons_append, List.takeWhile_append_of_pos (by grind)]
      simp
    have hdrop : s.cursor.rest.dropWhile (· != '\n') = '\n' :: r := by
      rw [htext, ← List.cons_append, List.dropWhile_append_of_pos (by grind)]
      simp
    simp [takeComment, ho, htake, hdrop]
  cases hstart : s.atLineStart with
  | true =>
    rw [lexStep_lineStart hstart (hin hstart), indentEnd_self (by simp [htext, isLineBlank])]
    refine ⟨{ s.past ('#' :: (text ++ ['\n'])) r with atLineStart := true }, ?_, rfl, rfl, rfl⟩
    simp [lineStep, htext, blankLine, hcomment, LexState.past, Cursor.past]
  | false =>
    rw [lexStep_inLine hstart]
    refine ⟨s.past ('#' :: text) ('\n' :: r), ?_, hstart, rfl, rfl⟩
    have hplace : s.cursor.past [] ('#' :: (text ++ '\n' :: r)) = s.cursor := by
      rw [← htext, Cursor.past_nil]
    simp [lexInLine, htext, isLineBlank, hplace, hcomment, LexState.past]

/-- Where a backslash joins two lines, the second one goes on. -/
theorem lexStep_join (hs : s.Stands lineStart bs ('\\' :: '\n' :: r))
    (hin : lineStart = true → bs ≠ []) (hr : r ≠ []) :
    lexStep o s = if lineStart then lexStep o (s.past ['\\', '\n'] r)
      else some (.more [] (s.past ['\\', '\n'] r)) := by
  obtain ⟨rfl, rfl, htext⟩ := hs
  cases hline : s.atLineStart with
  | true =>
    have hpast : (s.past ['\\', '\n'] r).atLineStart = true := hline
    rw [if_pos rfl, lexStep_lineStart hline (hin hline), lexStep_lineStart hpast (hin hline),
      indentEnd_join hr htext]
    rfl
  | false =>
    obtain ⟨d, more, rfl⟩ := List.exists_cons_of_ne_nil hr
    rw [if_neg Bool.false_ne_true, lexStep_inLine hline]
    simp [lexInLine, htext, isLineBlank, LexState.past, Cursor.past]

theorem lexStep_enter {text} (hs : s.Stands true bs text) (hin : bs ≠ [])
    (htext : ∀ c ∈ text.head?, isGap c = false) :
    ∃ next, lexStep o s = some (.more [] next) ∧ next.Stands false bs text := by
  obtain ⟨hline, rfl, rfl⟩ := hs
  refine ⟨{ s with atLineStart := false }, ?_, rfl, rfl, rfl⟩
  have hself : indentEnd s.cursor = some s.cursor := indentEnd_self fun c hc => by
    have := htext c hc
    simp_all [isGap]
  rw [lexStep_lineStart hline hin, hself, Option.map_some, lineStep]
  split
  · simp_all [isGap]
  · simp_all [isGap]
  · rfl

theorem lexStep_backslash (hs : s.Stands lineStart bs ('\\' :: r))
    (hin : lineStart = true → bs ≠ []) (h : lexStep o s ≠ none) :
    ∃ r', r = '\n' :: r' ∧ r' ≠ [] := by
  obtain ⟨rfl, rfl, htext⟩ := hs
  by_cases hr : ∃ d more, r = '\n' :: d :: more
  · obtain ⟨d, more, rfl⟩ := hr
    exact ⟨d :: more, rfl, by simp⟩
  · refine absurd ?_ h
    cases hline : s.atLineStart with
    | true =>
      rw [lexStep_lineStart hline (hin hline), indentEnd, htext, measureIndent]
      · rfl
      · exact fun d more hmore => hr ⟨d, more, hmore⟩
    | false =>
      rw [lexStep_inLine hline, lexInLine]
      simp only [htext, List.takeWhile_cons_of_neg (by decide : ¬isLineBlank '\\' = true),
        List.dropWhile_cons_of_neg (by decide : ¬isLineBlank '\\' = true), Cursor.past]
      split
      · next d more => exact absurd ⟨d, more, rfl⟩ hr
      · rfl

/-- Outside of brackets the end of a line is a token. -/
theorem lexStep_newline_outside (hs : s.Stands false [] ('\n' :: r)) :
    ∃ t next, lexStep o s = some (.more [t] next) ∧ t.kind = .newline ∧
    next.cursor.rest = r := by
  obtain ⟨hline, hbrackets, htext⟩ := hs
  rw [lexStep_inLine hline]
  have hblank : ¬isLineBlank '\n' = true := by decide
  simp only [lexInLine, htext, hbrackets, List.takeWhile_cons_of_neg hblank,
    List.dropWhile_cons_of_neg hblank, List.isEmpty_nil, if_true]
  exact ⟨_, _, rfl, rfl, rfl⟩

theorem lexStep_token (hs : s.Stands false bs (c :: r)) (hc : isGap c = false) :
    lexStep o s = lexToken o s s.cursor := by
  obtain ⟨hline, rfl, htext⟩ := hs
  have hblank : isLineBlank c = false := by simp_all [isGap]
  have hplace : s.cursor.past (s.cursor.rest.takeWhile isLineBlank)
      (s.cursor.rest.dropWhile isLineBlank) = s.cursor := by
    rw [htext, List.takeWhile_cons_of_neg (by simp [hblank]),
      List.dropWhile_cons_of_neg (by simp [hblank]), ← htext, Cursor.past_nil]
  have hother : c ≠ '#' ∧ c ≠ '\n' ∧ c ≠ '\\' := by simp_all [isGap]
  rw [lexStep_inLine hline, lexInLine]
  simp only [hplace]
  split <;> grind

end Steps

/-! ## The lexer and the relation -/

theorem scanToken_head {cs t} (h : scanToken g bs cs = some t) :
    ∃ c r, cs = c :: r ∧ isGap c = false := by
  obtain ⟨hsplit, hsolid⟩ := (scanToken_spec h).split
  obtain ⟨c, taken, htaken, _⟩ := hsolid.start
  rw [htaken, List.cons_append] at hsplit
  refine ⟨c, taken ++ t.rest, hsplit, ?_⟩
  cases hgap : isGap c with
  | false => rfl
  | true =>
    rw [hsplit, scanToken_gap hgap] at h
    cases h

theorem scanToken_length {cs t} (h : scanToken g bs cs = some t) : t.rest.length < cs.length := by
  obtain ⟨hsplit, hsolid⟩ := (scanToken_spec h).split
  have hpos := List.length_pos_iff.2 hsolid.ne_nil
  rw [hsplit, List.length_append]
  omega

theorem lexStep_stop (hs : s.Stands false [] []) :
    lexStep o s = some (.done [tokenAt o .endMarker s.cursor s.cursor]) := by
  have hplace : s.cursor.past [] [] = s.cursor := by
    have hself := Cursor.past_nil s.cursor
    rwa [hs.text] at hself
  simp [lexStep_inLine hs.line, lexInLine, hs.text, hs.brackets, hplace]

theorem lexFrom_stop {fuel} (hs : s.Stands false [] []) (h : lexFrom o fuel s = some tokens) :
    ∃ m, tokens = [m] ∧ m.kind = .endMarker := by
  cases fuel with
  | zero => cases h
  | succ fuel =>
    rw [lexFrom, lexStep_stop hs] at h
    exact ⟨_, (Option.some.inj h).symm, rfl⟩

theorem yields_stop (hs : s.Stands false [] []) : Yields o s 1 [.endMarker] := by
  intro fuel hfuel
  obtain ⟨fuel, rfl⟩ := Nat.exists_eq_succ_of_ne_zero (by omega : fuel ≠ 0)
  exact ⟨[tokenAt o .endMarker s.cursor s.cursor], by rw [lexFrom, lexStep_stop hs], rfl⟩

theorem Yields.token {t n} (hs : s.Stands false bs text)
    (hscan : scanToken o.digitGroups bs text = some t)
    (h : ∀ {s : LexState}, s.Stands false t.brackets t.rest → Yields o s n ks) :
    Yields o s (n + 1) (t.kind :: ks) := by
  obtain ⟨c, r, rfl, hc⟩ := scanToken_head hscan
  obtain ⟨hline, rfl, htext⟩ := hs
  have hstep := lexStep_token (o := o) ⟨hline, rfl, htext⟩ hc
  rw [lexToken_eq, htext, hscan, Option.map_some] at hstep
  have hnext : LexState.Stands { s with
      cursor := s.cursor.past t.taken t.rest, brackets := t.brackets } false t.brackets t.rest :=
    ⟨hline, rfl, rfl⟩
  exact (h hnext).step hstep

theorem lexFrom_of_lexes (ho : o.typeComments = false) (h : Lexes o.digitGroups bs text ks) :
    ∀ {s : LexState} {lineStart : Bool}, s.Stands lineStart bs text →
      (lineStart = true → bs ≠ []) → Yields o s (2 * text.length + 2)
      (ks ++ [.endMarker]) := by
  induction h with
  | stop =>
    intro s lineStart hs hin
    cases lineStart with
    | true => exact absurd rfl (hin rfl)
    | false => exact (yields_stop hs).mono (by omega)
  | blank hc _ ih =>
    intro s lineStart hs hin
    rw [List.length_cons]
    exact ((ih hs.past hin).congr (lexStep_blank hs hin hc)).mono (by omega)
  | newline hbs _ ih =>
    intro s lineStart hs hin
    obtain ⟨next, hstep, hnext⟩ := lexStep_newline hs hbs
    rw [List.length_cons]
    exact ((ih hnext fun _ => hbs).step hstep).mono (by omega)
  | join hr _ ih =>
    intro s lineStart hs hin
    have hstep := lexStep_join (o := o) hs hin hr
    simp only [List.length_cons]
    cases lineStart with
    | true => exact ((ih hs.past hin).congr hstep).mono (by omega)
    | false => exact ((ih hs.past hin).step hstep).mono (by omega)
  | comment hbs htext _ ih =>
    intro s lineStart hs hin
    obtain ⟨next, hstep, hnext⟩ := lexStep_comment ho hs hin htext
    simp only [List.length_cons, List.length_append]
    cases lineStart with
    | true => exact ((ih hnext hin).step hstep).mono (by omega)
    | false =>
      obtain ⟨after, hafter, hline⟩ := lexStep_newline (o := o) hnext hbs
      exact (((ih hline fun _ => hbs).step hafter).step hstep).mono (by omega)
  | @token bs cs ks t hscan _ ih =>
    intro s lineStart hs hin
    have hlen := scanToken_length hscan
    have htoken : ∀ {s : LexState}, s.Stands false bs cs →
        Yields o s (2 * t.rest.length + 3) (t.kind :: (ks ++ [.endMarker])) :=
      fun hs => .token hs hscan fun hs => ih hs (by simp)
    cases lineStart with
    | true =>
      obtain ⟨c, r, rfl, hc⟩ := scanToken_head hscan
      obtain ⟨next, hstep, hnext⟩ := lexStep_enter (o := o) hs (hin rfl) (by simpa using hc)
      exact ((htoken hnext).step hstep).mono (by omega)
    | false => exact (htoken hs).mono (by omega)

theorem Lexes.of_newline (h : Lexes g bs ('\n' :: r) ks) : bs ≠ [] ∧ Lexes g bs r ks := by
  cases h with
  | blank hc _ => exact absurd hc (by decide)
  | newline hbs h => exact ⟨hbs, h⟩
  | token hscan _ =>
    rw [scanToken_gap (by decide)] at hscan
    cases hscan

/-- Every comment of a text ends with a line of it. -/
def CommentsEnd (text : List Char) : Prop :=
  ∀ u v, text = u ++ '#' :: v → '\n' ∈ v

theorem CommentsEnd.append_right {u v} (h : CommentsEnd (u ++ v)) : CommentsEnd v := by
  rintro a b rfl
  exact h (u ++ a) b (by simp)

/-- The text ends with a token of its own, which no comment hides. -/
structure Unfinished (text : List Char) : Prop where
  comments : CommentsEnd text
  last : text.getLast? = some ')'

namespace Unfinished

variable {c : Char} {r u v : List Char}

theorem append_right (h : Unfinished (u ++ v)) (hv : v ≠ []) : Unfinished v where
  comments := h.comments.append_right
  last := by
    rw [← h.last, List.getLast?_append, Option.or_of_isSome (List.getLast?_isSome.2 hv)]

theorem rest (h : Unfinished (u ++ v)) : v = [] ∨ Unfinished v := by
  by_cases hv : v = []
  · exact .inl hv
  · exact .inr (h.append_right hv)

theorem tail (h : Unfinished (c :: r)) (hc : c ≠ ')') : Unfinished r := by
  refine append_right (u := [c]) h ?_
  rintro rfl
  exact hc (Option.some.inj h.last)

theorem opened (h : Unfinished r) : Unfinished ('(' :: r) where
  comments u v huv := by
    cases u with
    | nil => exact absurd (List.cons.inj huv).1 (by decide)
    | cons c u => exact h.comments u v (List.cons.inj huv).2
  last := by rw [List.getLast?_cons, h.last]; rfl

theorem dropBlanks {text} (h : Unfinished text) : Unfinished (text.dropWhile isLineBlank) := by
  induction text with
  | nil => exact h
  | cons c r ih =>
    cases hc : isLineBlank c with
    | true =>
      rw [List.dropWhile_cons_of_pos hc]
      exact ih (h.tail (by rintro rfl; cases hc))
    | false => rwa [List.dropWhile_cons_of_neg (by simp [hc])]

theorem dropComment (h : Unfinished ('#' :: r)) :
    Unfinished (('#' :: r).dropWhile (· != '\n')) := by
  obtain ⟨u, v, rfl, hu⟩ := List.eq_append_cons_of_mem (h.comments [] r rfl)
  have hdrop : ('#' :: (u ++ '\n' :: v)).dropWhile (· != '\n') = '\n' :: v := by
    rw [List.dropWhile_cons_of_pos rfl, List.dropWhile_append_of_pos]
    · rfl
    · intro c hc
      simpa using ne_of_mem_of_not_mem hc hu
  rw [hdrop]
  exact h.append_right (u := '#' :: u) (by simp)

theorem measured {cursor place col alt fixed col' alt' cs} (hcs : Unfinished cs)
    (hrest : cursor.rest = cs)
    (h : measureIndent cursor col alt fixed cs = some (col', alt', place)) :
    Unfinished place.rest := by
  fun_induction measureIndent cursor col alt fixed cs with
  | case1 _ _ _ _ _ ih | case2 _ _ _ _ _ ih | case3 _ _ _ _ _ ih =>
    exact ih (hcs.tail (by decide)) rfl h
  | case4 cursor col alt fixed c rest ih =>
    exact ih ((hcs.tail (by decide)).tail (by decide)) rfl h
  | case5 => cases h
  | case6 | case7 =>
    obtain ⟨_, _, rfl⟩ := by simpa using h
    exact hrest ▸ hcs

end Unfinished

/-- A step finds a token, or leaves the end of the text to be read. -/
def LexStep.GoesOn : LexStep → Prop
  | .more tokens next => (∃ t ∈ tokens, t.kind.isWritten = true) ∨ Unfinished next.cursor.rest
  | .done _ => False

theorem takeComment_eq (ho : o.typeComments = false) (place : Cursor) : takeComment o place = (none,
      place.past (place.rest.takeWhile (· != '\n')) (place.rest.dropWhile (· != '\n'))) := by
  simp [takeComment, ho]

theorem blankLine_goesOn (ho : o.typeComments = false) {place}
    (h : Unfinished (place.rest.dropWhile (· != '\n'))) : (blankLine o s place).GoesOn := by
  simp only [blankLine, takeComment_eq ho]
  split
  · next rest heq =>
    have heq : place.rest.dropWhile (· != '\n') = '\n' :: rest := heq
    rw [heq] at h
    exact .inr (h.tail (by decide))
  · exact .inr h

theorem lexStep_goesOn (ho : o.typeComments = false) {step} (hs : Unfinished s.cursor.rest)
    (h : lexStep o s = some step) : step.GoesOn := by
  unfold lexStep at h
  split at h
  · unfold lexLineStart at h
    obtain ⟨⟨col, alt, place⟩, hplace, h⟩ := Option.bind_eq_some_iff.1 h
    have hrest : Unfinished place.rest := hs.measured rfl hplace
    simp only at h
    split at h
    · next heq =>
      cases h
      rw [heq] at hrest
      exact blankLine_goesOn ho (heq ▸ hrest.dropComment)
    · next heq =>
      cases h
      refine blankLine_goesOn ho ?_
      rw [heq] at hrest ⊢
      exact hrest
    · split at h
      · obtain ⟨⟨tokens, indents⟩, _, h⟩ := Option.bind_eq_some_iff.1 h
        cases h
        exact .inr hrest
      · cases h
        exact .inr hrest
  · unfold lexInLine at h
    have hrest := hs.dropBlanks
    simp only [takeComment_eq ho, Cursor.past] at h
    generalize s.cursor.rest.dropWhile isLineBlank = text at h hrest
    split at h
    · cases hrest.last
    · cases h
      exact .inr hrest.dropComment
    · have hnext := hrest.tail (by decide)
      split at h <;>
      · cases h
        exact .inr hnext
    · split at h
      · cases h
        exact .inr ((hrest.tail (by decide)).tail (by decide))
      · cases h
    · rw [lexToken_eq] at h
      obtain ⟨t, hscan, rfl⟩ := Option.map_eq_some_iff.1 h
      exact .inl ⟨_, List.mem_singleton_self _, (scanToken_spec hscan).isWritten⟩

theorem lexFrom_finds (ho : o.typeComments = false) {fuel} (hs : Unfinished s.cursor.rest)
    (h : lexFrom o fuel s = some tokens) : ∃ t ∈ tokens, t.kind.isWritten = true := by
  induction fuel generalizing s tokens with
  | zero => cases h
  | succ fuel ih =>
    rw [lexFrom] at h
    split at h
    · cases h
    · next hstep => exact (lexStep_goesOn ho hs hstep).elim
    · next ts next hstep =>
      obtain ⟨more, hmore, rfl⟩ := Option.map_eq_some_iff.1 h
      rcases lexStep_goesOn ho hs hstep with ⟨t, ht, hkind⟩ | hnext
      · exact ⟨t, List.mem_append_left more ht, hkind⟩
      · obtain ⟨t, ht, hkind⟩ := ih hnext hmore
        exact ⟨t, List.mem_append_right ts ht, hkind⟩

theorem lexFrom_more {next fuel ts} (h : lexFrom o fuel s = some tokens)
    (hstep : lexStep o s = some (.more ts next)) :
    ∃ fuel' more, lexFrom o fuel' next = some more ∧ tokens = ts ++ more := by
  cases fuel with
  | zero => cases h
  | succ fuel =>
    rw [lexFrom, hstep] at h
    obtain ⟨more, hmore, rfl⟩ := Option.map_eq_some_iff.1 h
    exact ⟨fuel, more, hmore, rfl⟩

theorem lexStep_ne_none {fuel} (h : lexFrom o fuel s = some tokens) : lexStep o s ≠ none := by
  intro hstep
  cases fuel with
  | zero => cases h
  | succ fuel =>
    rw [lexFrom, hstep] at h
    cases h

/-- Nothing is written behind the end of a logical line. -/
def OneLine (ks : List TokenKind) : Prop :=
  ∀ u v, ks = u ++ .newline :: v → ∀ k ∈ v, k.isWritten = false

theorem OneLine.tail {k} (h : OneLine (k :: ks)) : OneLine ks := by
  rintro u v rfl
  exact h (k :: u) v rfl

theorem OneLine.of_filter (h : OneLine ((tokens.filter (·.kind != .typeIgnore)).map (·.kind))) :
    OneLine (tokens.map (·.kind)) := by
  intro u v huv k hk
  obtain ⟨front, back, rfl, rfl, hback⟩ := List.map_eq_append_iff.1 huv
  obtain ⟨t, back, rfl, ht, rfl⟩ := List.map_eq_cons_iff.1 hback
  obtain ⟨t', ht', rfl⟩ := List.mem_map.1 hk
  by_cases hkind : t'.kind = .typeIgnore
  · rw [hkind]
    rfl
  · have hkept : t' ∈ back.filter (·.kind != .typeIgnore) :=
      List.mem_filter.2 ⟨ht', bne_iff_ne.2 hkind⟩
    refine h ((front.filter (·.kind != .typeIgnore)).map (·.kind))
      ((back.filter (·.kind != .typeIgnore)).map (·.kind)) ?_ _ (List.mem_map.2 ⟨t',
      hkept, rfl⟩)
    rw [List.filter_append, List.filter_cons_of_pos (by rw [ht]; rfl), List.map_append,
      List.map_cons, ht]

theorem lexes_of_lexFrom {o} (ho : o.typeComments = false) {bs text s lineStart fuel tokens}
    (hs : s.Stands lineStart bs text) (hin : lineStart = true → bs ≠ [])
    (hend : text = [] ∨ Unfinished text) (h : lexFrom o fuel s = some tokens)
    (hone : OneLine (tokens.map (·.kind))) :
    ∃ ks, tokens.map (·.kind) = ks ++ [.endMarker] ∧ Lexes o.digitGroups bs text ks := by
  match text, lineStart with
  | [], true =>
    obtain ⟨next, hstep, hnext⟩ := lexStep_enter (o := o) hs (hin rfl) (by simp)
    obtain ⟨fuel', more, hmore, rfl⟩ := lexFrom_more h hstep
    exact lexes_of_lexFrom ho hnext (by simp) hend hmore hone
  | [], false =>
    by_cases hbs : bs = []
    · subst hbs
      obtain ⟨m, rfl, hm⟩ := lexFrom_stop hs h
      exact ⟨[], by simp [hm], .stop⟩
    · refine absurd ?_ (lexStep_ne_none h)
      simp [lexStep_inLine hs.line, lexInLine, hs.text, hs.brackets, hbs]
  | c :: r, lineStart =>
    have hend : Unfinished (c :: r) := hend.resolve_left (by simp)
    cases hgap : isGap c with
    | true =>
      have hchar : isLineBlank c = true ∨ c = '\n' ∨ c = '#' ∨ c = '\\' := by
        simpa [isGap, or_assoc] using hgap
      have htail : Unfinished r := hend.tail (by rintro rfl; cases hgap)
      rcases hchar with hblank | rfl | rfl | rfl
      · rw [lexFrom_congr (lexStep_blank hs hin hblank)] at h
        obtain ⟨ks, hks, hlexes⟩ := lexes_of_lexFrom ho hs.past hin (.inr htail) h hone
        exact ⟨ks, hks, .blank hblank hlexes⟩
      · by_cases hbs : bs = []
        · subst hbs
          cases lineStart with
          | true => exact absurd rfl (hin rfl)
          | false =>
            obtain ⟨t, next, hstep, ht, hnext⟩ := lexStep_newline_outside (o := o) hs
            obtain ⟨_, more, hmore, rfl⟩ := lexFrom_more h hstep
            obtain ⟨t', ht', hkind⟩ := lexFrom_finds ho (hnext ▸ htail) hmore
            rw [List.singleton_append, List.map_cons, ht] at hone
            rw [hone [] _ rfl _ (List.mem_map_of_mem ht')] at hkind
            cases hkind
        · obtain ⟨next, hstep, hnext⟩ := lexStep_newline (o := o) hs hbs
          obtain ⟨fuel', more, hmore, rfl⟩ := lexFrom_more h hstep
          obtain ⟨ks, hks, hlexes⟩ :=
            lexes_of_lexFrom ho hnext (fun _ => hbs) (.inr htail) hmore hone
          exact ⟨ks, hks, .newline hbs hlexes⟩
      · obtain ⟨text, v, rfl, htext⟩ := List.eq_append_cons_of_mem (hend.comments [] r rfl)
        obtain ⟨next, hstep, hnext⟩ := lexStep_comment ho hs hin htext
        obtain ⟨fuel', more, hmore, rfl⟩ := lexFrom_more h hstep
        have hrest : Unfinished ('\n' :: v) := htail.append_right (by simp)
        cases lineStart with
        | true =>
          obtain ⟨ks, hks, hlexes⟩ :=
            lexes_of_lexFrom ho hnext hin (.inr (hrest.tail (by decide))) hmore hone
          exact ⟨ks, hks, .comment (hin rfl) htext hlexes⟩
        | false =>
          obtain ⟨ks, hks, hlexes⟩ := lexes_of_lexFrom ho hnext hin (.inr hrest) hmore hone
          obtain ⟨hbs, hlexes⟩ := hlexes.of_newline
          exact ⟨ks, hks, .comment hbs htext hlexes⟩
      · obtain ⟨r, rfl, hr⟩ := lexStep_backslash hs hin (lexStep_ne_none h)
        have hstep := lexStep_join (o := o) hs hin hr
        have hrest : Unfinished r := htail.tail (by decide)
        cases lineStart with
        | true =>
          rw [lexFrom_congr hstep] at h
          obtain ⟨ks, hks, hlexes⟩ := lexes_of_lexFrom ho hs.past hin (.inr hrest) h hone
          exact ⟨ks, hks, .join hr hlexes⟩
        | false =>
          obtain ⟨fuel', more, hmore, rfl⟩ := lexFrom_more h hstep
          obtain ⟨ks, hks, hlexes⟩ := lexes_of_lexFrom ho hs.past hin (.inr hrest) hmore hone
          exact ⟨ks, hks, .join hr hlexes⟩
    | false =>
      cases lineStart with
      | true =>
        obtain ⟨next, hstep, hnext⟩ := lexStep_enter (o := o) hs (hin rfl) (by simpa using hgap)
        obtain ⟨fuel', more, hmore, rfl⟩ := lexFrom_more h hstep
        exact lexes_of_lexFrom ho hnext (by simp) (.inr hend) hmore hone
      | false =>
        have hstep := lexStep_token (o := o) hs hgap
        rw [lexToken_eq, hs.text, hs.brackets] at hstep
        cases hscan : scanToken o.digitGroups bs (c :: r) with
        | none =>
          rw [hscan] at hstep
          exact absurd hstep (lexStep_ne_none h)
        | some t =>
          rw [hscan, Option.map_some] at hstep
          obtain ⟨fuel', more, hmore, rfl⟩ := lexFrom_more h hstep
          have hlen : t.rest.length < r.length + 1 := scanToken_length hscan
          have hsplit := (scanToken_spec hscan).split.1
          have hnext : LexState.Stands { s with
              cursor := s.cursor.past t.taken t.rest, brackets := t.brackets } false t.brackets
              t.rest := ⟨hs.line, rfl, rfl⟩
          have hone : OneLine (t.kind :: more.map (·.kind)) := hone
          obtain ⟨ks, hks, hlexes⟩ := lexes_of_lexFrom ho hnext (by simp)
            (hsplit ▸ hend).rest hmore hone.tail
          exact ⟨t.kind :: ks, by simp [hks, tokenAt], .token hscan hlexes⟩
termination_by 2 * text.length + lineStart.toNat

/-! ## Texts that start with a bracket -/

theorem scanToken_open : scanToken g [] ('(' :: r) = some ⟨.op "(", ['('], r, ['(']⟩ := by
  simp [scanToken, scanString, scanWord, scanOperator, operators, dropPrefix?, bracketsAfter,
    isAsciiNameStart, isDigit, maxBrackets]

theorem lexes_open_iff :
    Lexes g [] ('(' :: r) ks ↔ ∃ ks', ks = .op "(" :: ks' ∧ Lexes g ['('] r ks' := by
  constructor
  · intro h
    cases h with
    | blank hc _ => exact absurd hc (by decide)
    | token hscan h =>
      obtain rfl := Option.some.inj (scanToken_open.symm.trans hscan)
      exact ⟨_, rfl, h⟩
  · rintro ⟨ks', rfl, h⟩
    exact .token scanToken_open h

def LexState.start (text : List Char) : LexState :=
  { cursor := { rest := text, line := 1, col := 0 }
    atLineStart := true
    brackets := []
    indents := [(0, 0)] }

theorem lexStep_start {c} (hc : isGap c = false) : lexStep o (.start (c :: r))
      = some (.more [] { LexState.start (c :: r) with atLineStart := false }) := by
  have hother : c ≠ ' ' ∧ c ≠ '\t' ∧ c ≠ '\x0c' ∧ c ≠ '\n' ∧ c ≠ '#' ∧
      c ≠ '\\' := by
    simpa [isGap, isLineBlank, and_assoc] using hc
  have hindent : measureIndent (LexState.start (c :: r)).cursor 0 0 0 (c :: r)
      = some (0, 0, (LexState.start (c :: r)).cursor) := by
    unfold measureIndent
    split <;> simp_all
  simp only [lexStep, LexState.start, if_true, lexLineStart] at hindent ⊢
  rw [hindent]
  simp only [Option.bind_eq_bind, Option.bind_some]
  split <;> simp_all [indentTokens]

theorem Lexes.isWritten (h : Lexes g bs text ks) : ∀ k ∈ ks, k.isWritten = true := by
  induction h with
  | stop => simp
  | blank _ _ ih | newline _ _ ih | join _ _ ih | comment _ _ _ ih => exact ih
  | token hscan _ ih => exact List.forall_mem_cons.2 ⟨(scanToken_spec hscan).isWritten, ih⟩

theorem Lexes.filter_typeIgnore (h : Lexes g bs text ks)
    (hkinds : tokens.map (·.kind) = ks ++ [.endMarker]) :
    tokens.filter (·.kind != .typeIgnore) = tokens := by
  refine List.filter_eq_self.2 fun t ht => bne_iff_ne.2 fun hkind => ?_
  have hmem : .typeIgnore ∈ tokens.map (·.kind) := hkind ▸ List.mem_map_of_mem ht
  rw [hkinds, List.mem_append] at hmem
  rcases hmem with hmem | hmem
  · exact absurd (h.isWritten _ hmem) (by decide)
  · simp at hmem

section Tokenize

variable {d : Dialect} {origin : Place} {r : List Char}

/-- The tokens of a text that starts with a bracket, in a new dialect without type comments. -/
theorem tokenize_open (hd : d.typeComments = false) (hminor : 7 ≤ d.minor) (hnull : '\x00' ∉ r)
    (hreturn : '\r' ∉ r) : tokenize d origin false ('(' :: r)
      = (lex { typeComments := false, digitGroups := true, line := origin.line, col := origin.col }
          ('(' :: r)).map fun tokens =>
        (tokens.filter (·.kind != .typeIgnore),
          tokens.length - (tokens.filter (·.kind != .typeIgnore)).length) := by
  have hnull' : ('(' :: r).contains '\x00' = false := by simpa using hnull
  have hline : unifyLines false ('(' :: r) = '(' :: r := unifyLines_self (by simpa using hreturn)
  have hgroups : decide (d.minor ≥ 6) = true := decide_eq_true (by omega)
  unfold tokenize
  simp only [hnull', hline, hd, hgroups, Bool.false_eq_true, if_false,
    if_neg (by omega : ¬d.minor < 7)]
  cases lex { typeComments := false, digitGroups := true, line := origin.line, col := origin.col }
    ('(' :: r) <;> rfl

theorem tokenize_of_lexes (hd : d.typeComments = false) (hminor : 7 ≤ d.minor)
    (hnull : '\x00' ∉ r) (hreturn : '\r' ∉ r) {ks} (h : Lexes true ['('] r ks) :
    ∃ tokens, tokenize d origin false ('(' :: r) = some (tokens, 0) ∧
      tokens.map (·.kind) = .op "(" :: (ks ++ [.endMarker]) := by
  have hopen : Lexes true [] ('(' :: r) (.op "(" :: ks) := lexes_open_iff.2 ⟨ks, rfl, h⟩
  have hinside : LexState.Stands { LexState.start ('(' :: r) with atLineStart := false } false []
      ('(' :: r) := ⟨rfl, rfl, rfl⟩
  obtain ⟨tokens, hlex, hkinds⟩ := ((lexFrom_of_lexes
    (o := { typeComments := false, digitGroups := true, line := origin.line, col := origin.col })
    rfl hopen hinside (by simp)).step (lexStep_start (by decide)))
    (2 * ('(' :: r).length + 4) (by omega)
  refine ⟨tokens, ?_, hkinds⟩
  rw [tokenize_open hd hminor hnull hreturn, lex]
  simp only [LexState.start] at hlex
  rw [hlex, Option.map_some, hopen.filter_typeIgnore hkinds, Nat.sub_self]

theorem tokenize_null {closeLine text x} (h : tokenize d origin closeLine text = some x) :
    '\x00' ∉ text := by
  intro hnull
  unfold tokenize at h
  simp [hnull] at h

/-- The kinds of a text that ends with a closing bracket, if nothing is written behind the first end
of a logical line. -/
theorem lexes_of_tokenize (hd : d.typeComments = false) (hminor : 7 ≤ d.minor)
    (hreturn : '\r' ∉ r)
    (hend : Unfinished r) {tokens n} (h : tokenize d origin false ('(' :: r) = some (tokens, n))
    (hone : OneLine (tokens.map (·.kind))) :
    ∃ ks, tokens.map (·.kind) = .op "(" :: (ks ++ [.endMarker]) ∧ Lexes true ['('] r ks := by
  have hnull : '\x00' ∉ r := fun hmem => tokenize_null h (List.mem_cons_of_mem _ hmem)
  rw [tokenize_open hd hminor hnull hreturn] at h
  obtain ⟨all, hlex, heq⟩ := Option.map_eq_some_iff.1 h
  obtain ⟨rfl, _⟩ := Prod.mk.inj heq
  obtain ⟨fuel, more, hmore, hall⟩ := lexFrom_more hlex (lexStep_start (by decide))
  obtain rfl : all = more := hall
  have hinside : LexState.Stands { LexState.start ('(' :: r) with atLineStart := false } false []
      ('(' :: r) := ⟨rfl, rfl, rfl⟩
  obtain ⟨ks, hks, hlexes⟩ :=
    lexes_of_lexFrom rfl hinside (by simp) (.inr hend.opened) hmore hone.of_filter
  obtain ⟨ks, rfl, hinner⟩ := lexes_open_iff.1 hlexes
  refine ⟨ks, ?_, hinner⟩
  rw [hlexes.filter_typeIgnore hks, hks, List.cons_append]

end Tokenize

end TypeStub.Syntax
