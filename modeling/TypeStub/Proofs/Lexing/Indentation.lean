import TypeStub.Proofs.Lexing.Layout
/-!
# Indentation within brackets

Between brackets the indentation of lines and the blanks at the end of the text mean nothing to
the lexer, as long as no token runs over the end of a line.
-/

namespace TypeStub.Syntax

open TypeStub.Text

/-! ## Where every token ends -/

/-- A character in front of which every token ends, unless it is part of a string literal. -/
def isEdge (c : Char) : Bool :=
  c == ' ' || c == '\t' || c == '\n' || c == ')'

/-- A text that continues no token. -/
def Edge (text : List Char) : Prop :=
  ∀ c ∈ text.head?, isEdge c = true

section Edges

variable {u w : List Char}

theorem edge_newline (v : List Char) : Edge ('\n' :: v) := by
  intro c hc
  obtain rfl : '\n' = c := by simpa using hc
  decide

theorem isEdge_cases {c} (h : isEdge c = true) : c = ' ' ∨ c = '\t' ∨ c = '\n' ∨ c = ')' := by
  simpa [isEdge, or_assoc] using h

/-- What a run of characters takes does not reach over an edge. -/
theorem takeWhile_append_edge {p : Char → Bool} (hp : ∀ c, isEdge c = true → p c = false)
    (hw : Edge w) : (u ++ w).takeWhile p = u.takeWhile p := by
  induction u with
  | nil =>
    cases w with
    | nil => rfl
    | cons c w => simp [hp c (hw c rfl)]
  | cons c u ih =>
    rw [List.cons_append, List.takeWhile_cons, List.takeWhile_cons, ih]

theorem dropWhile_append_edge {p : Char → Bool} (hp : ∀ c, isEdge c = true → p c = false)
    (hw : Edge w) : (u ++ w).dropWhile p = u.dropWhile p ++ w := by
  induction u with
  | nil =>
    cases w with
    | nil => rfl
    | cons c w => simp [hp c (hw c rfl)]
  | cons c u ih =>
    rw [List.cons_append, List.dropWhile_cons, List.dropWhile_cons, ih]
    split <;> rfl

theorem isNameChar_edge (c : Char) (h : isEdge c = true) : isNameChar c = false := by
  rcases isEdge_cases h with rfl | rfl | rfl | rfl <;> decide

theorem isAlpha_edge (c : Char) (h : isEdge c = true) : c.isAlpha = false := by
  rcases isEdge_cases h with rfl | rfl | rfl | rfl <;> decide

theorem scanName_append (hw : Edge w) :
    scanName (u ++ w) = (scanName u).map fun (kind, taken, rest) => (kind, taken, rest ++ w) := by
  unfold scanName
  simp only [takeWhile_append_edge isNameChar_edge hw, dropWhile_append_edge isNameChar_edge hw]
  split
  · rfl
  · split <;> rfl

theorem dropPrefix?_append {pre} (h : ∀ c ∈ pre, isEdge c = false) (hw : Edge w) :
    dropPrefix? pre (u ++ w) = (dropPrefix? pre u).map (· ++ w) := by
  induction pre generalizing u with
  | nil => simp [dropPrefix?]
  | cons p pre ih =>
    cases u with
    | nil =>
      cases w with
      | nil => rfl
      | cons c w =>
        have hpc : (p == c) = false := beq_false_of_ne fun heq => by
          have hp := h p (by simp)
          rw [heq, hw c rfl] at hp
          cases hp
        simp [dropPrefix?, hpc]
    | cons c u =>
      simp only [List.cons_append, dropPrefix?]
      split
      · exact ih fun c hc => h c (by simp [hc])
      · rfl

theorem operators_edge :
    ∀ op ∈ operators, op.toList ≠ [] ∧ ∀ c ∈ op.toList.tail, isEdge c = false := by
  have hall : ∀ op ∈ operators, op.toList ≠ [] ∧
    op.toList.tail.any isEdge = false := by decide
  intro op hop
  obtain ⟨hne, htail⟩ := hall op hop
  exact ⟨hne, fun c hc => eq_false_of_ne_true (List.any_eq_false.1 htail c hc)⟩

theorem scanOperator_append {c} (hw : Edge w) :
    scanOperator (c :: u ++ w) = (scanOperator (c :: u)).map fun (op, rest) => (op, rest ++ w) := by
  have hop : ∀ op ∈ operators, dropPrefix? op.toList (c :: u ++ w)
      = (dropPrefix? op.toList (c :: u)).map (· ++ w) := by
    intro op hmem
    obtain ⟨hne, hedge⟩ := operators_edge op hmem
    obtain ⟨p, pre, hchars⟩ := List.exists_cons_of_ne_nil hne
    rw [hchars] at hedge ⊢
    simp only [List.cons_append, dropPrefix?]
    split
    · exact dropPrefix?_append hedge hw
    · rfl
  unfold scanOperator
  rw [List.map_findSome?]
  generalize operators = ops at hop
  induction ops with
  | nil => rfl
  | cons op ops ih =>
    rw [List.findSome?_cons, List.findSome?_cons, hop op (by simp),
      ih fun op hmem => hop op (by simp [hmem]), Function.comp_apply]
    cases dropPrefix? op.toList (c :: u) <;> rfl

theorem scanString_append_none (hw : Edge w) : scanString (u ++ w) = none ↔
    scanString u = none := by
  unfold scanString
  simp only [takeWhile_append_edge isAlpha_edge hw, dropWhile_append_edge isAlpha_edge hw]
  cases u.dropWhile Char.isAlpha with
  | nil =>
    cases w with
    | nil => rfl
    | cons c w =>
      have hquote : (c == '\'' || c == '"') = false := by
        rcases isEdge_cases (hw c rfl) with rfl | rfl | rfl | rfl <;> decide
      simp [hquote]
  | cons q rest =>
    simp only [List.cons_append]
    split
    · constructor
      all_goals
        intro h
        split at h
        · split at h <;> cases h
        · cases h
    · rfl

theorem StringToken.closed_append {t : StringToken} {quote r} (h : t.Written quote)
    (hr : t.Closed quote r) (hw : Edge w) : t.Closed quote (r ++ w) := by
  intro hone hbody
  cases r with
  | cons c r => exact hr hone hbody
  | nil =>
    intro hhead
    rcases h.quoted with rfl | rfl <;> exact absurd (hw _ hhead) (by decide)

theorem scanString_append {t r} (hw : Edge w) (h : scanString u = some (some (t, r))) :
    scanString (u ++ w) = some (some (t, r ++ w)) := by
  obtain ⟨quote, hwritten, rfl, hclosed⟩ := scanString_written h
  rw [List.append_assoc]
  exact hwritten.scan (StringToken.closed_append hwritten hclosed hw)

/-- A literal that ends in front of a text does not depend on it. -/
theorem scanString_of_append {t r} (h : scanString (u ++ w) = some (some (t, r ++ w))) :
    scanString u = some (some (t, r)) := by
  obtain ⟨quote, hwritten, hsplit, hclosed⟩ := scanString_written h
  rw [← List.append_assoc, List.append_cancel_right_eq] at hsplit
  subst hsplit
  refine hwritten.scan fun hone hbody hhead => hclosed hone hbody ?_
  obtain ⟨more, rfl⟩ := List.head?_eq_some_iff.1 hhead
  rfl

def Scanned.before (t : Scanned) (w : List Char) : Scanned :=
  { t with rest := t.rest ++ w }

variable {t : Scanned} {bs : List Char}

theorem Scanned.before_inj {t'} (h : t.before w = t'.before w) : t = t' := by
  obtain ⟨kind, taken, rest, brackets⟩ := t
  obtain ⟨kind', taken', rest', brackets'⟩ := t'
  simpa [Scanned.before] using h

theorem scanWord_append (g : Bool) (bs : List Char) (c : Char) (u : List Char) (hw : Edge w) :
    scanWord g bs (c :: u ++ w) = (scanWord g bs (c :: u)).map (·.before w) ∨
      (∀ t, scanWord g bs (c :: u ++ w) = some t → ∃ v, t.kind = .number v) ∧
        ∀ t, scanWord g bs (c :: u) = some t → ∃ v, t.kind = .number v := by
  have hpoint : (u ++ w).head?.any isDigit = u.head?.any isDigit := by
    cases u with
    | cons d u => rfl
    | nil =>
      cases w with
      | nil => rfl
      | cons d w =>
        rcases isEdge_cases (hw d rfl) with rfl | rfl | rfl | rfl <;> rfl
  simp only [List.cons_append, scanWord, hpoint]
  split
  · rw [← List.cons_append, scanName_append hw, Option.map_map, Option.map_map]
    exact .inl rfl
  · split
    · right
      constructor
      all_goals
        intro t h
        split at h
        · split at h
          · cases h
          · exact ⟨_, congrArg Scanned.kind (Option.some.inj h).symm⟩
        · cases h
    · left
      rw [← List.cons_append, scanOperator_append hw]
      cases scanOperator (c :: u) with
      | none => rfl
      | some found =>
        simp only [Option.map_some, Option.bind_eq_bind, Option.bind_some]
        cases bracketsAfter found.1 bs <;> rfl

theorem scanToken_append {g} (hw : Edge w) (hnumber : ∀ v, t.kind ≠ .number v)
    (h : scanToken g bs u = some t) : scanToken g bs (u ++ w) = some (t.before w) := by
  unfold scanToken at h ⊢
  split at h
  · cases h
  · next literal rest hstring =>
    cases h
    obtain ⟨taken, rfl, _⟩ := scanString_split hstring
    rw [scanString_append hw hstring]
    simp [Scanned.before]
  · next hstring =>
    rw [(scanString_append_none hw).2 hstring]
    cases u with
    | nil => cases h
    | cons c u =>
      rcases scanWord_append g bs c u hw with heq | ⟨_, hnum⟩
      · simp only [heq, h, Option.map_some]
      · obtain ⟨v, hv⟩ := hnum t h
        exact absurd hv (hnumber v)

/-- A token that ends in front of an edge is the same without what stands there. -/
theorem scanToken_of_append {g} (hw : Edge w) (hu : u ≠ [])
    (hnumber : ∀ v, t.kind ≠ .number v)
    (h : scanToken g bs (u ++ w) = some (t.before w)) : scanToken g bs u = some t := by
  unfold scanToken at h ⊢
  split at h
  · cases h
  · next literal rest hstring =>
    obtain ⟨kind, taken, r, brackets⟩ := t
    simp only [Scanned.before, Option.some.injEq, Scanned.mk.injEq] at h
    obtain ⟨rfl, htaken, rfl, rfl⟩ := h
    rw [scanString_of_append hstring]
    obtain ⟨taken', hsplit, _⟩ := scanString_split hstring
    rw [← List.append_assoc, List.append_cancel_right_eq] at hsplit
    subst hsplit
    have htaken : taken' = taken := by simpa using htaken
    simp [htaken]
  · next hstring =>
    rw [(scanString_append_none hw).1 hstring]
    obtain ⟨c, u, rfl⟩ := List.exists_cons_of_ne_nil hu
    rcases scanWord_append g bs c u hw with heq | ⟨hnum, _⟩
    · rw [heq] at h
      obtain ⟨t', ht', hbefore⟩ := Option.map_eq_some_iff.1 h
      rw [← Scanned.before_inj hbefore]
      exact ht'
    · obtain ⟨v, hv⟩ := hnum _ h
      exact absurd hv (hnumber v)

/-- A token that stays within its line: no number, and no literal that runs over the end of one. -/
structure TokenKind.InLine (k : TokenKind) : Prop where
  number : ∀ v, k ≠ .number v
  literal : ∀ l, k = .string l → '\n' ∉ l.body

theorem Scanned.Shape.notMem (h : t.Shape) (ht : t.kind.InLine) : '\n' ∉ t.taken := by
  cases h with
  | word h => exact fun hmem => absurd (h _ hmem) (by decide)
  | number v h => exact absurd h (ht.number v)
  | operator op hop h => exact h ▸ (operators_solid op hop).2
  | literal l quote hkind hl h =>
    have hquote : '\n' ∉ closingQuotes quote (l.quotes == 3) := by
      unfold closingQuotes
      rcases hl.quoted with rfl | rfl <;> split <;> decide
    have hletters : '\n' ∉ l.letters := fun hmem => absurd (hl.letters _ hmem) (by decide)
    rw [h, StringToken.text]
    simp [hquote, hletters, ht.literal l hkind]

/-- A token does not run over the end of a line, nor into blanks or brackets without quotes. -/
theorem Scanned.Shape.fits (h : t.Shape) (ht : t.kind.InLine) (hw : Edge w) (hu : u ≠ [])
    (hend : w.head? = some '\n' ∨ '\'' ∉ w ∧ '"' ∉ w)
    (hsplit : t.taken ++ t.rest = u ++ w) : ∃ r, u = t.taken ++ r ∧ t.rest = r ++ w := by
  rcases List.append_eq_append_iff.1 hsplit with ⟨r, hr, hrest⟩ | ⟨m, hm, hrest⟩
  · exact ⟨r, hr, hrest⟩
  · cases m with
    | nil => exact ⟨[], by simpa using hm.symm, by simpa using hrest.symm⟩
    | cons c m =>
      subst hrest
      have hc : isEdge c = true := hw c rfl
      cases h with
      | word h =>
        have hname := h c (by simp [hm])
        rw [isNameChar_edge c hc] at hname
        cases hname
      | number v h => exact absurd h (ht.number v)
      | operator op hop h =>
        obtain ⟨a, u, rfl⟩ := List.exists_cons_of_ne_nil hu
        have hedge := (operators_edge op hop).2 c (by simp [← h, hm])
        rw [hc] at hedge
        cases hedge
      | literal l quote hkind hl h =>
        rcases hend with hline | ⟨hsingle, hdouble⟩
        · obtain rfl : c = '\n' := by simpa using hline
          exact absurd (by simp [hm]) (Scanned.Shape.notMem (.literal l quote hkind hl h) ht)
        · -- the last character is the quote
          obtain ⟨init, hinit⟩ := l.text_ends quote
          have hlast : (c :: m).getLast? = some quote := by
            have htaken := congrArg List.getLast? (hm.symm.trans (h.trans hinit))
            simpa [List.getLast?_append] using htaken
          have hmem : quote ∈ c :: m ++ t.rest :=
            List.mem_append_left _ (List.mem_of_getLast? hlast)
          rcases hl.quoted with rfl | rfl
          · exact absurd hmem hsingle
          · exact absurd hmem hdouble

theorem scanToken_replace {g w'} (ht : t.kind.InLine) (hw : Edge w) (hw' : Edge w') (hu : u ≠ [])
    (hend : w.head? = some '\n' ∨ '\'' ∉ w ∧ '"' ∉ w)
    (h : scanToken g bs (u ++ w) = some t) : ∃ r, t.rest = r ++ w ∧ u = t.taken ++ r ∧
      scanToken g bs (u ++ w') = some { t with rest := r ++ w' } := by
  obtain ⟨⟨hsplit, _⟩, _, hshape⟩ := scanToken_spec h
  obtain ⟨r, hr, hrest⟩ := hshape.fits ht hw hu hend hsplit.symm
  refine ⟨r, hrest, hr, ?_⟩
  have hbefore : t = Scanned.before { t with rest := r } w := by
    rw [Scanned.before, ← hrest]
  rw [hbefore] at h
  have hcut : scanToken g bs u = some { t with rest := r } :=
    scanToken_of_append hw hu ht.number h
  exact scanToken_append (t := { t with rest := r }) hw' ht.number hcut

end Edges

/-! ## Blanks at the ends -/

def isPlainSpace (c : Char) : Bool :=
  isIndent c || c == '\n'

section Blanks

variable {g : Bool} {bs r t : List Char} {ks : List TokenKind} {c : Char}

theorem isPlainSpace_gap (h : isPlainSpace c = true) : isGap c = true := by
  simp only [isPlainSpace, isIndent, Bool.or_eq_true, beq_iff_eq] at h
  rcases h with (rfl | rfl) | rfl <;> decide

theorem isIndent_blank (h : isIndent c = true) : isLineBlank c = true := by
  simp only [isIndent, Bool.or_eq_true, beq_iff_eq] at h
  rcases h with rfl | rfl <;> decide

theorem Lexes.of_space (h : Lexes g bs (c :: r) ks) (hc : isPlainSpace c = true) :
    Lexes g bs r ks := by
  cases h with
  | blank _ h => exact h
  | newline _ h => exact h
  | join | comment => exact absurd hc (by decide)
  | token hscan _ =>
    rw [scanToken_gap (isPlainSpace_gap hc)] at hscan
    cases hscan

theorem Lexes.of_spaces (h : Lexes g bs (t ++ r) ks) (ht : ∀ c ∈ t, isPlainSpace c = true) :
    Lexes g bs r ks := by
  induction t with
  | nil => exact h
  | cons c t ih =>
    exact ih (h.of_space (ht c (by simp))) fun c hc => ht c (by simp [hc])

theorem Lexes.indent (h : Lexes g bs r ks) (ht : ∀ c ∈ t, isIndent c = true) :
    Lexes g bs (t ++ r) ks := by
  induction t with
  | nil => exact h
  | cons c t ih =>
    exact .blank (isIndent_blank (ht c (by simp))) (ih fun c hc => ht c (by simp [hc]))

theorem Lexes.close_ne_nil (h : Lexes g bs [')'] ks) : bs ≠ [] := by
  rintro rfl
  cases h with
  | blank hc _ => exact absurd hc (by decide)
  | token hscan _ =>
    simp [scanToken, scanString, scanWord, scanOperator, operators, dropPrefix?, bracketsAfter,
      isAsciiNameStart, isDigit, openerOf] at hscan

/-- Blanks in front of a closing bracket are an edge without quotes. -/
theorem edge_close (ht : ∀ c ∈ t, isPlainSpace c = true) :
    Edge (t ++ [')']) ∧ '\'' ∉ t ++ [')'] ∧ '"' ∉ t ++ [')'] := by
  refine ⟨?_, ?_, ?_⟩
  · intro c hc
    cases t with
    | nil =>
      obtain rfl : ')' = c := by simpa using hc
      decide
    | cons d t =>
      obtain rfl : d = c := by simpa using hc
      have hd := ht d (by simp)
      simp only [isPlainSpace, isIndent, Bool.or_eq_true, beq_iff_eq] at hd
      rcases hd with (rfl | rfl) | rfl <;> decide
  all_goals
    intro hmem
    rcases List.mem_append.1 hmem with hmem | hmem
    · exact absurd (ht _ hmem) (by decide)
    · simp at hmem

theorem Lexes.of_last_line (h : Lexes g bs r ks) (ht : ∀ c ∈ t, isPlainSpace c = true)
    (hr : t ++ [')'] = '\n' :: r) : Lexes g bs [')'] ks := by
  cases t with
  | nil => simp at hr
  | cons c t =>
    cases hr
    exact h.of_spaces fun c hc => ht c (by simp [hc])

/-- The closing bracket may stand in a line of its own, and blanks before it may go. -/
theorem Lexes.close_line {x} (h : Lexes g bs (x ++ (t ++ [')'])) ks)
    (ht : ∀ c ∈ t, isPlainSpace c = true) (hks : ∀ k ∈ ks, k.InLine) :
    Lexes g bs (x ++ ['\n', ')']) ks := by
  generalize hcs : x ++ (t ++ [')']) = cs at h
  -- where nothing stands in front of the blanks, they are passed over
  have hstep : ∀ {bs cs : List Char} {ks : List TokenKind}, Lexes g bs cs ks →
      (∀ {a x}, a :: (x ++ (t ++ [')'])) = cs → Lexes g bs (a :: (x ++ ['\n', ')'])) ks) →
      ∀ {x}, x ++ (t ++ [')']) = cs → Lexes g bs (x ++ ['\n', ')']) ks := by
    rintro bs cs ks h hmore (_ | ⟨a, x⟩) rfl
    · have hclose : Lexes g bs [')'] ks := of_spaces (t := t) h ht
      exact .newline hclose.close_ne_nil hclose
    · exact hmore rfl
  refine hstep h ?_ hcs
  clear hcs x
  induction h with
  | stop => simp
  | blank hc h ih =>
    intro a x hcs
    obtain ⟨rfl, hr⟩ := List.cons.inj hcs
    exact .blank hc (hstep h (ih hks) hr)
  | newline hbs h ih =>
    intro a x hcs
    obtain ⟨rfl, hr⟩ := List.cons.inj hcs
    exact .newline hbs (hstep h (ih hks) hr)
  | join hr h ih =>
    intro a x hcs
    obtain ⟨rfl, hline⟩ := List.cons.inj hcs
    cases x with
    | nil => exact .join (by simp) (h.of_last_line ht hline)
    | cons a x =>
      obtain ⟨rfl, hrest⟩ := List.cons.inj hline
      exact .join (by simp) (hstep h (ih hks) hrest)
  | @comment bs text r ks hbs htext h ih =>
    intro a x hcs
    obtain ⟨rfl, hline⟩ := List.cons.inj hcs
    -- the comment ends in front of the blanks or within them
    rcases List.append_eq_append_iff.1 hline with ⟨m, rfl, hm⟩ | ⟨m, rfl, hm⟩
    · have hx : '\n' ∉ x := fun hmem => htext (by simp [hmem])
      rcases List.append_eq_append_iff.1 hm with ⟨m', _, hm'⟩ | ⟨t', rfl, ht'⟩
      · cases m' <;> simp at hm'
      · have hclose := h.of_last_line (fun c hc => ht c (by simp [hc])) ht'.symm
        exact .comment hbs hx hclose
    · cases m with
      | nil =>
        have hclose := h.of_last_line ht (by simpa using hm.symm)
        simpa using Lexes.comment hbs htext hclose
      | cons a m =>
        obtain ⟨rfl, hrest⟩ := List.cons.inj hm
        have hinner := Lexes.comment hbs htext (hstep h (ih hks) hrest.symm)
        simpa using hinner
  | @token bs cs ks tok hscan h ih =>
    intro a x hcs
    subst hcs
    have hkind := hks tok.kind (by simp)
    obtain ⟨hedge, hquotes⟩ := edge_close ht
    obtain ⟨r, hrest, _, hscan'⟩ := scanToken_replace hkind hedge (edge_newline [')'])
      (List.cons_ne_nil a x) (.inr hquotes) hscan
    have hinner := hstep h (ih fun k hk => hks k (by simp [hk])) hrest.symm
    exact .token (t := { tok with rest := r ++ ['\n', ')'] }) hscan' hinner

end Blanks

/-! ## Indentation of lines -/

/-- Two texts, each up to a closing bracket, that differ at most in the indentation of their lines
behind the first. -/
inductive Relaid : List Char → List Char → Prop
  | close : Relaid [')'] [')']
  | same {c r r'} : Relaid r r' → Relaid (c :: r) (c :: r')
  | line {b b' r r'} : (∀ c ∈ b, isIndent c = true) → (∀ c ∈ b', isIndent c = true) →
      Relaid r r' → Relaid ('\n' :: (b ++ r)) ('\n' :: (b' ++ r'))

namespace Relaid

variable {g : Bool} {bs r r' u v x : List Char} {ks : List TokenKind}

theorem ne_nil (h : Relaid r r') : r' ≠ [] := by
  cases h <;> simp

theorem append (h : Relaid r r') : Relaid (u ++ r) (u ++ r') := by
  induction u with
  | nil => exact h
  | cons c u ih => exact .same ih

theorem of_newline (h : Relaid ('\n' :: r) x) :
    ∃ b b' v v', r = b ++ v ∧ x = '\n' :: (b' ++ v') ∧ (∀ c ∈ b, isIndent c = true) ∧
      (∀ c ∈ b', isIndent c = true) ∧ Relaid v v' := by
  cases h with
  | same h => exact ⟨[], [], _, _, rfl, rfl, by simp, by simp, h⟩
  | line hb hb' h => exact ⟨_, _, _, _, rfl, rfl, hb, hb', h⟩

theorem of_line (hu : '\n' ∉ u) (h : Relaid (u ++ '\n' :: v) x) :
    ∃ v', x = u ++ '\n' :: v' ∧ Relaid ('\n' :: v) ('\n' :: v') := by
  induction u generalizing x with
  | nil =>
    obtain ⟨b, b', w, w', rfl, rfl, hb, hb', h'⟩ := of_newline h
    exact ⟨_, rfl, h⟩
  | cons c u ih =>
    generalize hcs : c :: u ++ '\n' :: v = cs at h
    cases h with
    | close => simp at hcs
    | same h =>
      cases hcs
      obtain ⟨v', rfl, hv⟩ := ih (fun hmem => hu (by simp [hmem])) h
      exact ⟨v', rfl, hv⟩
    | line =>
      obtain ⟨rfl, _⟩ := List.cons.inj hcs
      exact absurd (by simp) hu

theorem eq_of_notMem (hr : '\n' ∉ r) (h : Relaid r r') : r' = r := by
  induction h with
  | close => rfl
  | same _ ih => rw [ih fun hmem => hr (by simp [hmem])]
  | line => exact absurd (by simp) hr

/-- Within brackets a line may be indented in another way. -/
theorem lexes (h : Lexes g bs r ks) (hr : Relaid r r') (hks : ∀ k ∈ ks, k.InLine) :
    Lexes g bs r' ks := by
  -- behind the end of a line the blanks are exchanged
  have hline : ∀ {bs r x : List Char} {ks : List TokenKind},
      (∀ {y}, Relaid r y → Lexes g bs y ks) → Relaid ('\n' :: r) ('\n' :: x) →
      Lexes g bs x ks := by
    intro bs r x ks h hx
    obtain ⟨b, b', v, v', rfl, heq, hb, hb', hv⟩ := of_newline hx
    obtain rfl := (List.cons.inj heq).2
    have hinner : Lexes g bs v' ks :=
      Lexes.of_spaces (h hv.append) fun c hc => by simp [isPlainSpace, hb c hc]
    exact hinner.indent hb'
  induction h generalizing r' with
  | stop => cases hr
  | blank hc _ ih =>
    cases hr with
    | close | line => exact absurd hc (by decide)
    | same hr => exact .blank hc (ih hr hks)
  | newline hbs _ ih =>
    obtain ⟨v', rfl, hv⟩ := of_line (u := []) (by simp) hr
    exact .newline hbs (hline (fun hy => ih hy hks) hv)
  | join _ _ ih =>
    obtain ⟨v', rfl, hv⟩ := of_line (u := ['\\']) (by simp) hr
    obtain ⟨_, b', _, w', _, heq, _, _, hw⟩ := of_newline hv
    refine .join ?_ (hline (fun hy => ih hy hks) hv)
    rw [(List.cons.inj heq).2]
    simp [hw.ne_nil]
  | @comment bs text r ks hbs htext _ ih =>
    obtain ⟨v', rfl, hv⟩ := of_line (u := '#' :: text) (by simpa using htext) hr
    exact .comment hbs htext (hline (fun hy => ih hy hks) hv)
  | @token bs cs ks t hscan hrest ih =>
    have hks' : ∀ k ∈ ks, k.InLine := fun k hk => hks k (by simp [hk])
    by_cases hmem : '\n' ∈ cs
    · obtain ⟨u, v, rfl, hu⟩ := List.eq_append_cons_of_mem hmem
      obtain ⟨v', rfl, hv⟩ := of_line hu hr
      have hne : u ≠ [] := by
        rintro rfl
        rw [List.nil_append, scanToken_gap (by decide)] at hscan
        cases hscan
      obtain ⟨rest, hrest, _, hscan'⟩ :=
        scanToken_replace (hks t.kind (by simp)) (edge_newline v)
        (edge_newline v') hne (.inl rfl) hscan
      have hinner := ih (hrest ▸ hv.append) hks'
      exact .token (t := { t with rest := rest ++ '\n' :: v' }) hscan' hinner
    · rw [hr.eq_of_notMem hmem]
      exact .token hscan hrest

/-- Two lines are the same but for their indentation. -/
def SameLine (l l' : List Char) : Prop :=
  ∃ b b' m, l = b ++ m ∧ l' = b' ++ m ∧ (∀ c ∈ b, isIndent c = true) ∧
    ∀ c ∈ b', isIndent c = true

theorem of_lines {f : List Char → List Char} (hf : ∀ l, SameLine l (f l)) {z z'}
    (hz : Relaid z z')
    {lines} (hne : lines ≠ []) : ∃ b b' y y', joinWith ['\n'] lines ++ z = b ++ y ∧
      joinWith ['\n'] (lines.map f) ++ z' = b' ++ y' ∧ (∀ c ∈ b, isIndent c = true) ∧
      (∀ c ∈ b', isIndent c = true) ∧ Relaid y y' := by
  induction lines with
  | nil => exact absurd rfl hne
  | cons l lines ih =>
    obtain ⟨b, b', m, hl, hl', hb, hb'⟩ := hf l
    cases lines with
    | nil =>
      refine ⟨b, b', m ++ z, m ++ z', ?_, ?_, hb, hb', hz.append⟩
      · simp [joinWith, ← List.append_assoc, ← hl]
      · simp [joinWith, ← List.append_assoc, ← hl']
    | cons next lines =>
      obtain ⟨c, c', y, y', hy, hy', hc, hc', hrelaid⟩ := ih (by simp)
      refine ⟨b, b', m ++ '\n' :: (c ++ y), m ++ '\n' :: (c' ++ y'), ?_, ?_, hb, hb',
        (Relaid.line hc hc' hrelaid).append⟩
      · rw [joinWith_cons (by simp), List.append_assoc, List.append_assoc, hy, hl]
        simp
      · have hmap : (next :: lines).map f ≠ [] := by simp
        rw [List.map_cons (a := l), joinWith_cons hmap, List.append_assoc,
          List.append_assoc, hy', hl']
        simp

end Relaid

theorem Lexes.relines {g bs z ks} {f : List Char → List Char} {lines}
    (h : Lexes g bs (joinWith ['\n'] lines ++ z) ks) (hf : ∀ l, Relaid.SameLine l (f l))
    (hz : Relaid z z) (hne : lines ≠ []) (hks : ∀ k ∈ ks, k.InLine) :
    Lexes g bs (joinWith ['\n'] (lines.map f) ++ z) ks := by
  obtain ⟨b, b', y, y', hy, hy', hb, hb', hrelaid⟩ := Relaid.of_lines hf hz hne
  rw [hy] at h
  rw [hy']
  have hinner := h.of_spaces fun c hc => by simp [isPlainSpace, hb c hc]
  exact (Relaid.lexes hinner hrelaid hks).indent hb'

theorem isSpace_of_isLineBreak {c} (h : isLineBreak c = true) : isSpace c.toNat = true := by
  simp only [isLineBreak, Bool.or_eq_true, Bool.and_eq_true, decide_eq_true_eq, beq_iff_eq] at h
  rcases h with (((h | h) | h) | h) | h
  iterate 2
    · rw [isSpace, if_pos (by omega)]
      simp only [Bool.or_eq_true, Bool.and_eq_true, decide_eq_true_eq]
      omega
  all_goals
    rw [h]
    decide

theorem Lexes.reindented {g text ks} (h : Lexes g ['('] (text ++ [')']) ks)
    (hspace : ∀ c ∈ text, isSpace c.toNat = true → isPlainSpace c = true)
    (hks : ∀ k ∈ ks, k.InLine) : Lexes g ['('] (Text.reindented text ++ [')']) ks := by
  have hplain : ∀ c ∈ dedent text, isSpace c.toNat = true → isPlainSpace c = true := by
    intro c hc hs
    rcases mem_dedent hc with rfl | hc
    · decide
    · exact hspace c hc hs
  have hdedent : Lexes g ['('] (dedent text ++ [')']) ks := by
    rw [← joinWith_splitAt '\n' text] at h
    rw [dedent_eq]
    refine h.relines (fun l => ?_) .close splitAt_ne_nil hks
    obtain ⟨b, hb, hindent⟩ := dedentLine_split (isIndent_margin text) l
    exact ⟨b, [], _, hb, rfl, hindent, by simp⟩
  obtain ⟨lead, trail, hsplit, hlead, htrail⟩ := strip_split (dedent text)
  have hlast : ∀ c ∈ (strip (dedent text)).getLast?, isSpace c.toNat = false :=
    dropTrailing_last
  unfold Text.reindented
  generalize strip (dedent text) = middle at hsplit hlast
  rw [hsplit] at hplain
  have hclose : Lexes g ['('] (middle ++ ['\n', ')']) ks := by
    rw [hsplit, List.append_assoc, List.append_assoc] at hdedent
    have hinner := hdedent.of_spaces fun c hc => hplain c (by simp [hc]) (hlead c hc)
    exact hinner.close_line (fun c hc => hplain c (by simp [hc]) (htrail c hc)) hks
  by_cases hne : middle = []
  · subst hne
    exact hclose.of_space (by decide)
  · have hbreaks : ∀ c ∈ middle, isLineBreak c = true → c = '\n' := by
      intro c hc hbreak
      have hc' := hplain c (by simp [hc]) (isSpace_of_isLineBreak hbreak)
      simp only [isPlainSpace, isIndent, Bool.or_eq_true, beq_iff_eq] at hc'
      rcases hc' with (rfl | rfl) | rfl
      · exact absurd hbreak (by decide)
      · exact absurd hbreak (by decide)
      · rfl
    have hend : ∀ c ∈ middle.getLast?, c ≠ '\n' := by
      rintro _ hc rfl
      exact absurd (hlast _ hc) (by decide)
    rw [splitLines_eq_splitAt hbreaks hend hne, flatMap_lines _ splitAt_ne_nil, List.append_assoc]
    rw [← joinWith_splitAt '\n' middle] at hclose
    exact hclose.relines (fun l =>
      ⟨[], "    ".toList, l, rfl, rfl, by simp, by simp [isIndent]⟩)
      (.same .close) splitAt_ne_nil hks

end TypeStub.Syntax
