import TypeStub.Proofs.Grammar.Placed
import TypeStub.Proofs.Lexing.Positions
import TypeStub.Source
/-!
# Spans that can be cut out

The lexer counts lines and columns in a text whose line ends are unified, and a source cuts bytes
out of the text as it was written. Both agree on every character that is no line end, so the text
of an expression can always be cut out of the source it was read from.
-/

namespace TypeStub

open TypeStub.Syntax

/-! ## Lines -/

theorem byteLength_cons (c : Char) (text : List Char) :
    byteLength (c :: text) = c.utf8Size + byteLength text := rfl

@[simp] theorem byteLength_nil : byteLength [] = 0 := rfl

theorem byteLength_append (a b : List Char) :
    byteLength (a ++ b) = byteLength a + byteLength b := by
  induction a with
  | nil => simp
  | cons c a ih => simp only [List.cons_append, byteLength_cons, ih, Nat.add_assoc]

theorem sourceLines_flatten (text : List Char) : (sourceLines text).flatten = text := by
  fun_induction sourceLines text with
  | case1 => rfl
  | case2 rest ih => simp [ih]
  | case3 c rest hc hend ih => simp [ih]
  | case4 c rest hc hend hlines ih =>
    rw [hlines] at ih
    simp [← ih]
  | case5 c rest hc hend line lines hlines ih =>
    rw [hlines] at ih
    simpa using ih

theorem rangesFrom_get (offset : Nat) (front : List (List Char)) (n : Nat) (rest : List Nat) :
    (rangesFrom offset (front.map byteLength ++ n :: rest))[front.length]?
      = some (offset + byteLength front.flatten, offset + byteLength front.flatten + n) := by
  induction front generalizing offset with
  | nil => rfl
  | cons line front ih =>
    simp only [List.map_cons, List.cons_append, rangesFrom, List.length_cons,
      List.getElem?_cons_succ, ih, List.flatten_cons, byteLength_append, Nat.add_assoc]

variable {text rest before after : List Char} {c : Char}

theorem lineOffsets_get {line front behind} (h : sourceLines text = front ++ line :: behind) :
    ∃ stop, (lineOffsets text)[front.length]? = some (byteLength front.flatten, stop) := by
  refine ⟨byteLength front.flatten + byteLength line, ?_⟩
  have := rangesFrom_get 0 front (byteLength line) (behind.map byteLength)
  simpa [lineOffsets, h] using this

/-! ## Characters within a line -/

/-- In the text, the character `c` stands in the line of the given number, behind `col` bytes of
it. -/
def OnLine (text : List Char) (line col : Nat) (c : Char) : Prop :=
  ∃ front before after behind, sourceLines text = front ++ (before ++ c :: after) :: behind ∧
    line = front.length + 1 ∧ col = byteLength before

theorem OnLine.below {first line col} (htext : sourceLines text = first :: sourceLines rest)
    (h : OnLine rest line col c) : OnLine text (line + 1) col c := by
  obtain ⟨front, before, after, behind, hlines, rfl, rfl⟩ := h
  exact ⟨first :: front, before, after, behind, by simp [htext, hlines], by simp, rfl⟩

theorem OnLine.behind {rest c d line col} (hd : d ≠ '\n' ∧ d ≠ '\r')
    (h : OnLine rest line col c) :
    OnLine (d :: rest) line (if line = 1 then d.utf8Size + col else col) c := by
  obtain ⟨front, before, after, behind, hlines, rfl, rfl⟩ := h
  have hcons : ∀ l ls, sourceLines rest = l :: ls →
      sourceLines (d :: rest) = (d :: l) :: ls := by
    intro l ls hls
    rw [sourceLines]
    · simp [hd, hls]
    · rintro _ rfl
      simp at hd
  cases front with
  | nil =>
    refine ⟨[], d :: before, after, behind, by simpa using hcons _ _ hlines, rfl, ?_⟩
    simp [byteLength_cons]
  | cons l front =>
    refine ⟨(d :: l) :: front, before, after,
      behind, by simpa using hcons _ _ hlines, by simp, ?_⟩
    simp

theorem OnLine.first (hc : c ≠ '\n' ∧ c ≠ '\r') : OnLine (c :: rest) 1 0 c := by
  have hlines : ∃ l ls, sourceLines (c :: rest) = (c :: l) :: ls := by
    have hend : (c == '\n' || c == '\r') = false := by simp [hc]
    rw [sourceLines]
    · rw [hend, if_neg Bool.false_ne_true]
      split
      · exact ⟨[], [], rfl⟩
      · exact ⟨_, _, rfl⟩
    · rintro _ rfl
      simp at hc
  obtain ⟨l, ls, hlines⟩ := hlines
  exact ⟨[], [], l, ls, hlines, rfl, rfl⟩

theorem sourceLines_lineFeed (rest : List Char) :
    sourceLines ('\n' :: rest) = ['\n'] :: sourceLines rest := by
  rw [sourceLines]
  · rfl
  · rintro _ h
    simp at h

theorem sourceLines_return (h : ∀ more, rest ≠ '\n' :: more) :
    sourceLines ('\r' :: rest) = ['\r'] :: sourceLines rest := by
  rw [sourceLines]
  · rfl
  · rintro more _ rfl
    exact h more rfl

/-- Behind a line end, the rest is read one line further down. -/
theorem onLine_below {first} (hc : c ≠ '\n')
    (htext : sourceLines text = first :: sourceLines rest)
    (hrest : ∀ before, unifyLines true rest = before ++ c :: after → OnLine rest (advance (1, 0)
      before).1 (advance (1, 0) before).2 c)
    (h : '\n' :: unifyLines true rest = before ++ c :: after) :
    OnLine text (advance (1, 0) before).1 (advance (1, 0) before).2 c := by
  cases before with
  | nil => exact absurd (List.cons.inj h).1.symm hc
  | cons d before =>
    obtain ⟨rfl, hmore⟩ := List.cons.inj h
    have hline := (hrest before hmore).below htext
    obtain ⟨_, hshift⟩ := advance_shift before 1 0
    rw [advance_lineEnd, hshift]
    simpa [Nat.add_comm] using hline

/-- Behind another character, the rest is read one column further right. -/
theorem onLine_behind {d} (hd : d ≠ '\n' ∧ d ≠ '\r')
    (hrest : ∀ before, unifyLines true rest = before ++ c :: after → OnLine rest (advance (1, 0)
      before).1 (advance (1, 0) before).2 c)
    (h : d :: unifyLines true rest = before ++ c :: after) :
    OnLine (d :: rest) (advance (1, 0) before).1 (advance (1, 0) before).2 c := by
  cases before with
  | nil =>
    obtain ⟨rfl, _⟩ := List.cons.inj h
    exact .first hd
  | cons e before =>
    obtain ⟨rfl, hmore⟩ := List.cons.inj h
    have hline := (hrest before hmore).behind hd
    obtain ⟨_, hshift⟩ := advance_shift before 0 d.utf8Size
    rw [advance_cons hd.1, Nat.zero_add, hshift]
    simpa using hline

theorem notMem_of_lineEnds (hc : c ≠ '\n') (htext : ∀ d ∈ text, d = '\n') :
    text ≠ before ++ c :: after :=
  fun h => hc (htext c (h ▸ by simp))

theorem unifyLines_onLine (hc : c ≠ '\n') (h : unifyLines true text = before ++ c :: after) :
    OnLine text (advance (1, 0) before).1 (advance (1, 0) before).2 c := by
  fun_induction unifyLines true text generalizing before with
  | case1 | case3 | case4 | case5 => exact absurd h (notMem_of_lineEnds hc (by simp))
  | case2 hclose | case6 hclose => exact absurd rfl hclose
  | case7 rest _ ih => exact onLine_below hc (by rw [sourceLines]) (fun _ => ih) h
  | case8 rest _ _ hfeed ih => exact onLine_below hc (sourceLines_return hfeed) (fun _ => ih) h
  | case9 d rest _ _ _ _ hreturn ih =>
    by_cases hd : d = '\n'
    · subst hd
      exact onLine_below hc (sourceLines_lineFeed rest) (fun _ => ih) h
    · exact onLine_behind ⟨hd, hreturn⟩ (fun _ => ih) h

/-! ## Cuts -/

theorem byteLength_succ (c : Char) (front : List Char) :
    ∃ n, byteLength (c :: front) = n + 1 ∧ n + 1 = c.utf8Size + byteLength front := by
  have hpos : 0 < c.utf8Size := c.utf8Size_pos
  rw [byteLength_cons]
  exact ⟨c.utf8Size + byteLength front - 1, by omega, by omega⟩

theorem cut_byteLength (front rest : List Char) :
    dropBytes (byteLength front) (front ++ rest) = some rest ∧
      takeBytes (byteLength front) (front ++ rest) = some front := by
  induction front with
  | nil => simp [dropBytes, takeBytes]
  | cons c front ih =>
    obtain ⟨n, hn, hlen⟩ := byteLength_succ c front
    rw [hn, List.cons_append, dropBytes, takeBytes, if_pos (by omega), if_pos (by omega), hlen,
      Nat.add_sub_cancel_left, ih.1, ih.2]
    exact ⟨rfl, rfl⟩

theorem sliceBytes_middle (before piece after : List Char) :
    sliceBytes (before ++ (piece ++ after)) (byteLength before)
      (byteLength before + byteLength piece) = some piece := by
  unfold sliceBytes
  split
  · next hle =>
    cases piece with
    | nil => rfl
    | cons c piece =>
      obtain ⟨n, hn, _⟩ := byteLength_succ c piece
      omega
  · rw [(cut_byteLength before _).1, Nat.add_sub_cancel_left]
    exact (cut_byteLength piece after).2

/-- Between two characters of a text the cut never runs through a character. -/
theorem sliceBytes_prefixes {front front'} (h : front <+: text) (h' : front' <+: text) :
    ∃ piece, sliceBytes text (byteLength front) (byteLength front') = some piece := by
  rcases List.prefix_or_prefix_of_prefix h h' with ⟨middle, rfl⟩ | ⟨middle, rfl⟩
  · obtain ⟨rest, rfl⟩ := h'
    rw [List.append_assoc, byteLength_append]
    exact ⟨middle, sliceBytes_middle front middle rest⟩
  · refine ⟨[], if_pos ?_⟩
    rw [byteLength_append]
    exact Nat.le_add_right _ _

/-- A place between two characters of a text. -/
def Reached (text : List Char) (line col : Nat) : Prop :=
  ∃ start stop front, (lineOffsets text)[line - 1]? = some (start, stop) ∧ front <+: text ∧
    byteLength front = start + col

theorem OnLine.reached {line col} (h : OnLine text line col c) :
    Reached text line col ∧ Reached text line (col + c.utf8Size) := by
  obtain ⟨front, before, after, behind, hlines, rfl, rfl⟩ := h
  obtain ⟨stop, hoffset⟩ := lineOffsets_get hlines
  have htext : text = front.flatten ++ (before ++ c :: after) ++ behind.flatten := by
    rw [← sourceLines_flatten text, hlines]
    simp
  refine ⟨⟨_, stop, front.flatten ++ before, hoffset, ?_, byteLength_append _ _⟩,
    ⟨_, stop, front.flatten ++ (before ++ [c]), hoffset, ?_, ?_⟩⟩
  · exact ⟨c :: after ++ behind.flatten, by simp [htext]⟩
  · exact ⟨after ++ behind.flatten, by simp [htext]⟩
  · simp [byteLength_append, byteLength_cons]

/-- Both ends of a token lie between two characters of the source. -/
theorem lexeme_reached {t} (h : Lexeme (unifyLines true text) t) :
    Reached text t.span.line t.span.col ∧ Reached text t.span.endLine t.span.endCol := by
  obtain ⟨before, piece, after, hwhole, hsolid, hstart, hstop⟩ := h.covers
  constructor
  · obtain ⟨c, rest, rfl, hc⟩ := hsolid.start
    have hline := unifyLines_onLine hc (hwhole.trans (List.append_assoc before (c :: rest) after))
    rw [← hstart] at hline
    exact hline.reached.1
  · obtain ⟨init, c, rfl, hc⟩ := hsolid.stop
    have hwhole' : unifyLines true text = (before ++ init) ++ c :: after := by simpa using hwhole
    have hline := unifyLines_onLine hc hwhole'
    rw [← List.append_assoc, advance_append] at hstop
    obtain ⟨line, col⟩ := advance (1, 0) (before ++ init)
    rw [advance_cons hc, advance_nil] at hstop
    obtain ⟨hendLine, hendCol⟩ := Prod.mk.inj hstop
    rw [hendLine, hendCol]
    exact hline.reached.2

theorem Source.cut_of_reached {s : Source} {span : Span}
    (hstart : Reached s.text span.line span.col) (hstop : Reached s.text span.endLine span.endCol) :
    ∃ piece, (s.offsetsFrom span [] >>= fun x => s.cut x.1 x.2) = .ok piece := by
  obtain ⟨start, _, front, hget, hfront, hlen⟩ := hstart
  obtain ⟨stop, _, front', hget', hfront', hlen'⟩ := hstop
  obtain ⟨piece, hpiece⟩ := sliceBytes_prefixes hfront hfront'
  refine ⟨piece, ?_⟩
  have hoffsets : s.offsetsFrom span [] = .ok (start + span.col, stop + span.endCol) := by
    simp only [Source.offsetsFrom, startWithDecorators]
    simp only [bind, Except.bind, hget, hget']
    rfl
  rw [hoffsets]
  simp only [bind, Except.bind, Source.cut, ← hlen, ← hlen', hpiece]

theorem Source.cut_of_stretch {s : Source} {d tokens n span}
    (htokens : tokenize d .origin true s.text = some (tokens, n))
    (hspan : Stretch (· ∈ tokens) span) :
    ∃ piece, (s.offsetsFrom span [] >>= fun x => s.cut x.1 x.2) = .ok piece := by
  obtain ⟨ts, hne, hts, rfl⟩ := hspan
  have hlexeme : ∀ t ∈ ts, Lexeme (unifyLines true s.text) t := fun t ht => by
    obtain ⟨hmem, hlayout⟩ := hts t ht
    exact (tokenize_sits htokens t hmem).resolve_left (by simp [hlayout])
  have hspan : spanOf ts
      = ⟨(ts.head hne).span.line, (ts.head hne).span.col,
        (ts.getLast hne).span.endLine, (ts.getLast hne).span.endCol⟩ := by
    simp [spanOf, List.head?_eq_some_head hne, List.getLast?_eq_some_getLast hne]
  rw [hspan]
  exact cut_of_reached (lexeme_reached (hlexeme _ (List.head_mem hne))).1
    (lexeme_reached (hlexeme _ (List.getLast_mem hne))).2

end TypeStub
