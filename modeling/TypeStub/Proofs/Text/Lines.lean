import TypeStub.Text.Hex
import TypeStub.Text.Lines
import TypeStub.Text.Space
/-!
# Lines and their indentation

A text is its lines with line feeds between them. Removing the common indentation takes blanks from
the front of lines and nothing else; stripping takes white space from the two ends.
-/

namespace TypeStub.Text

/-! ## Digits -/

theorem isDigit_iff {c : Char} : isDigit c = true ↔ c.isDigit = true := by
  simp [isDigit, Char.isDigit, Char.le_def]

/-- A number is written in digits only. -/
theorem isDigit_of_mem_decimal {n : Nat} {c : Char} (h : c ∈ (decimal n).toList) :
    isDigit c = true := by
  rw [decimal, String.toList_ofList] at h
  exact isDigit_iff.2 (Nat.isDigit_of_mem_toDigits (by decide) (by decide) h)

/-! ## Cutting and joining -/

section Cuts

variable {α : Type} {p : α → Bool} {l : List α}

theorem splitBy_ne_nil : splitBy p l ≠ [] := by
  cases l with
  | nil => simp [splitBy]
  | cons a l =>
    rw [splitBy]
    split
    · simp
    · split <;> simp

theorem joinWith_cons {sep piece : List α} {pieces : List (List α)} (h : pieces ≠ []) :
    joinWith sep (piece :: pieces) = piece ++ sep ++ joinWith sep pieces := by
  cases pieces with
  | nil => exact absurd rfl h
  | cons => rfl

end Cuts

theorem dropPrefix?_split {α : Type} [BEq α] [LawfulBEq α] {lead cs rest : List α}
    (h : dropPrefix? lead cs = some rest) : cs = lead ++ rest := by
  fun_induction dropPrefix? lead cs with
  | case1 => simpa using h
  | case2 => cases h
  | case3 c cs d ds hcd ih => simp_all
  | case4 => cases h

theorem dropPrefix?_self {α : Type} [BEq α] [LawfulBEq α] (lead rest : List α) :
    dropPrefix? lead (lead ++ rest) = some rest := by
  induction lead with
  | nil => rfl
  | cons c lead ih => simpa [dropPrefix?] using ih

variable {sep c : Char} {text : List Char}

theorem splitAt_ne_nil : splitAt sep text ≠ [] :=
  splitBy_ne_nil

theorem joinWith_splitAt (sep : Char) (text : List Char) :
    joinWith [sep] (splitAt sep text) = text := by
  unfold splitAt
  induction text with
  | nil => rfl
  | cons c text ih =>
    rw [splitBy]
    split
    · next hc =>
      rw [joinWith_cons splitBy_ne_nil, ih, beq_iff_eq.1 hc]
      rfl
    · split
      · next hnil => exact absurd hnil splitBy_ne_nil
      · next piece pieces hpieces =>
        rw [hpieces] at ih
        cases pieces with
        | nil | cons => exact congrArg (c :: ·) ih

theorem splitAt_of_not_mem (h : sep ∉ text) : splitAt sep text = [text] := by
  unfold splitAt
  induction text with
  | nil => rfl
  | cons c text ih =>
    obtain ⟨hc, htext⟩ := List.ne_and_not_mem_of_not_mem_cons h
    rw [splitBy, if_neg (by simpa using hc.symm), ih htext]

theorem splitAt_append {front} (h : sep ∉ front) (back : List Char) :
    splitAt sep (front ++ sep :: back) = front :: splitAt sep back := by
  unfold splitAt
  induction front with
  | nil => simp [splitBy]
  | cons c front ih =>
    obtain ⟨hc, hfront⟩ := List.ne_and_not_mem_of_not_mem_cons h
    rw [List.cons_append, splitBy, if_neg (by simpa using hc.symm), ih hfront]

/-- A text is cut into two pieces at the only place where the character is. -/
theorem splitAt_eq_pair {a b} :
    splitAt sep text = [a, b] ↔ text = a ++ sep :: b ∧ sep ∉ a ∧ sep ∉ b := by
  constructor
  · intro h
    by_cases hsep : sep ∈ text
    · obtain ⟨front, back, rfl, hfront⟩ := List.eq_append_cons_of_mem hsep
      rw [splitAt_append hfront] at h
      obtain ⟨rfl, hrest⟩ := List.cons.inj h
      by_cases hback : sep ∈ back
      · obtain ⟨front', back', rfl, hfront'⟩ := List.eq_append_cons_of_mem hback
        rw [splitAt_append hfront'] at hrest
        exact absurd (List.cons.inj hrest).2 splitAt_ne_nil
      · rw [splitAt_of_not_mem hback] at hrest
        obtain rfl := List.singleton_inj.1 hrest
        exact ⟨rfl, hfront, hback⟩
    · rw [splitAt_of_not_mem hsep] at h
      cases h
  · rintro ⟨rfl, ha, hb⟩
    rw [splitAt_append ha, splitAt_of_not_mem hb]

theorem linesWithEnds_ne_nil {rest} : linesWithEnds (c :: rest) ≠ [] := by
  rw [linesWithEnds.eq_def]
  split
  · next heq => cases heq
  · simp
  · split
    · simp
    · split <;> simp

/-- Where line feeds are the only line ends, the lines of a text that ends within one are what
stands between them. -/
theorem splitLines_eq_splitAt (hbreaks : ∀ c ∈ text, isLineBreak c = true → c = '\n')
    (hlast : ∀ c ∈ text.getLast?, c ≠ '\n') (hne : text ≠ []) :
    splitLines text = splitAt '\n' text := by
  unfold splitLines splitAt
  fun_induction linesWithEnds text with
  | case1 => exact absurd rfl hne
  | case2 => exact absurd (hbreaks '\r' (by simp) (by decide)) (by decide)
  | case3 c rest _ hc ih =>
    obtain rfl := hbreaks c (by simp) hc
    have hrest : rest ≠ [] := by
      rintro rfl
      exact hlast '\n' (by simp) rfl
    obtain ⟨d, more, rfl⟩ := List.exists_cons_of_ne_nil hrest
    rw [List.map_cons, ih (fun c hc => hbreaks c (by simp [hc])) (by simpa using hlast) hrest]
    rfl
  | case4 c rest _ hc hnil ih =>
    have hline : (c == '\n') = false := beq_false_of_ne fun heq => hc (heq ▸ by decide)
    cases rest with
    | nil => simp [splitBy, hline]
    | cons d more => exact absurd hnil linesWithEnds_ne_nil
  | case5 c rest _ hc line stop lines hlines ih =>
    have hline : (c == '\n') = false := beq_false_of_ne fun heq => hc (heq ▸ by decide)
    have hrest : rest ≠ [] := by
      rintro rfl
      simp [linesWithEnds] at hlines
    obtain ⟨d, more, rfl⟩ := List.exists_cons_of_ne_nil hrest
    have hsplit := ih (fun c hc => hbreaks c (by simp [hc])) (by simpa using hlast) hrest
    rw [hlines, List.map_cons] at hsplit
    rw [splitBy, hline, ← hsplit]
    rfl

/-! ## Indentation -/

theorem isIndent_commonStart {a b} (h : ∀ c ∈ a, isIndent c = true) :
    ∀ c ∈ commonStart a b, isIndent c = true := by
  fun_induction commonStart a b with
  | case1 a as b bs hab ih =>
    intro c hc
    rcases List.mem_cons.1 hc with rfl | hc
    · exact h c (by simp)
    · exact ih (fun c hc => h c (by simp [hc])) c hc
  | case2 => simp
  | case3 => simp

theorem isIndent_commonIndent (lines : List (List Char)) :
    ∀ c ∈ commonIndent lines, isIndent c = true := by
  have htake : ∀ line : List Char, ∀ c ∈ line.takeWhile isIndent, isIndent c = true :=
    fun line => List.all_eq_true.1 List.all_takeWhile
  fun_cases commonIndent lines with
  | case1 => simp
  | case2 line => exact htake line
  | case3 line rest _ => exact isIndent_commonStart (htake line)

def dedentLine (margin line : List Char) : List Char :=
  let line := if line.all isIndent then [] else line
  (dropPrefix? margin line).getD line

def margin (text : List Char) : List Char :=
  commonIndent (((splitAt '\n' text).map fun line => if line.all isIndent then [] else line).filter
    (!·.isEmpty))

theorem isIndent_margin (text : List Char) : ∀ c ∈ margin text, isIndent c = true :=
  isIndent_commonIndent _

theorem dedent_eq (text : List Char) :
    dedent text = joinWith ['\n'] ((splitAt '\n' text).map (dedentLine (margin text))) := by
  unfold dedent
  simp only [List.map_map]
  rfl

theorem dedentLine_split {margin : List Char} (hmargin : ∀ c ∈ margin, isIndent c = true)
    (line : List Char) : ∃ b, line = b ++ dedentLine margin line ∧ ∀ c ∈ b,
    isIndent c = true := by
  by_cases hblank : line.all isIndent = true
  · have hnil : dedentLine margin line = [] := by
      cases margin <;> simp [dedentLine, hblank, dropPrefix?]
    exact ⟨line, by rw [hnil, List.append_nil], List.all_eq_true.1 hblank⟩
  · simp only [dedentLine, if_neg hblank]
    cases hdrop : dropPrefix? margin line with
    | none => exact ⟨[], rfl, by simp⟩
    | some rest => exact ⟨margin, dropPrefix?_split hdrop, hmargin⟩

/-! ## Stripping -/

theorem dropTrailing_split {α : Type} (p : α → Bool) (l : List α) :
    ∃ trail, l = dropTrailing p l ++ trail ∧ ∀ a ∈ trail, p a = true := by
  refine ⟨(l.reverse.takeWhile p).reverse, ?_, ?_⟩
  · rw [dropTrailing, ← List.reverse_append, List.takeWhile_append_dropWhile,
      List.reverse_reverse]
  · intro a ha
    exact List.all_eq_true.1 List.all_takeWhile a (List.mem_reverse.1 ha)

theorem dropTrailing_last {α : Type} {p : α → Bool} {l} :
    ∀ a ∈ (dropTrailing p l).getLast?, p a = false := by
  intro a ha
  rw [dropTrailing, List.getLast?_reverse] at ha
  have hhead := List.head?_dropWhile_not p l.reverse
  rwa [Option.mem_def.1 ha] at hhead

theorem strip_split (text : List Char) :
    ∃ lead trail, text = lead ++ strip text ++ trail ∧
      (∀ c ∈ lead, isSpace c.toNat = true) ∧ ∀ c ∈ trail, isSpace c.toNat = true := by
  obtain ⟨trail, htrail, hspace⟩ :=
    dropTrailing_split (fun c : Char => isSpace c.toNat) (text.dropWhile fun c => isSpace c.toNat)
  refine ⟨text.takeWhile fun c => isSpace c.toNat, trail, ?_, ?_, hspace⟩
  · rw [List.append_assoc, strip, ← htrail, List.takeWhile_append_dropWhile]
  · exact fun c hc => List.all_eq_true.1 List.all_takeWhile c hc

/-! ## Indenting anew -/

/-- A text without its common indentation and without white space around it, every line indented by
four blanks and closed. -/
def reindented (text : List Char) : List Char :=
  (splitLines (strip (dedent text))).flatMap fun line => "    ".toList ++ line ++ ['\n']

theorem flatMap_lines (b : List Char) {lines : List (List Char)} (h : lines ≠ []) :
    (lines.flatMap fun line => b ++ line ++ ['\n'])
      = joinWith ['\n'] (lines.map (b ++ ·)) ++ ['\n'] := by
  induction lines with
  | nil => exact absurd rfl h
  | cons line lines ih =>
    cases lines with
    | nil => simp [joinWith]
    | cons next lines =>
      have hmap : ((next :: lines).map (b ++ ·)) ≠ [] := by simp
      rw [List.flatMap_cons, ih (by simp), List.map_cons (a := line), joinWith_cons hmap]
      simp only [List.append_assoc]

theorem mem_joinWith {sep pieces} (h : c ∈ joinWith sep pieces) :
    c ∈ sep ∨ ∃ piece ∈ pieces, c ∈ piece := by
  fun_induction joinWith sep pieces with
  | case1 => simp at h
  | case2 piece => exact .inr ⟨piece, by simp, h⟩
  | case3 piece pieces _ ih =>
    rcases List.mem_append.1 h with h | h
    · rcases List.mem_append.1 h with h | h
      · exact .inr ⟨piece, by simp, h⟩
      · exact .inl h
    · rcases ih h with h | ⟨piece', hmem, h⟩
      · exact .inl h
      · exact .inr ⟨piece', by simp [hmem], h⟩

theorem mem_joinWith_of_mem {sep piece pieces} (h : piece ∈ pieces) (hc : c ∈ piece) :
    c ∈ joinWith sep pieces := by
  fun_induction joinWith sep pieces with
  | case1 => simp at h
  | case2 => simp_all
  | case3 first pieces _ ih =>
    rcases List.mem_cons.1 h with rfl | h
    · simp [hc]
    · exact List.mem_append_right _ (ih h)

theorem mem_of_mem_splitAt {piece} (h : piece ∈ splitAt sep text) (hc : c ∈ piece) :
    c ∈ text := by
  rw [← joinWith_splitAt sep text]
  exact mem_joinWith_of_mem h hc

theorem mem_dedent (h : c ∈ dedent text) : c = '\n' ∨ c ∈ text := by
  rw [dedent_eq] at h
  rcases mem_joinWith h with h | ⟨piece, hpiece, hc⟩
  · exact .inl (by simpa using h)
  · obtain ⟨line, hline, rfl⟩ := List.mem_map.1 hpiece
    obtain ⟨b, hb, _⟩ := dedentLine_split (isIndent_margin text) line
    exact .inr (mem_of_mem_splitAt hline (hb ▸ List.mem_append_right b hc))

theorem mem_of_mem_splitLines {line} (h : line ∈ splitLines text) (hc : c ∈ line) :
    c ∈ text := by
  unfold splitLines at h
  fun_induction linesWithEnds text generalizing line with
  | case1 => simp at h
  | case2 rest ih | case3 d rest _ _ ih =>
    rcases List.mem_cons.1 h with rfl | h
    · simp at hc
    · simp [ih h hc]
  | case4 => simp_all
  | case5 d rest _ _ first stop lines hlines ih =>
    rw [hlines] at ih
    rcases List.mem_cons.1 h with rfl | h
    · rcases List.mem_cons.1 hc with rfl | hc
      · simp
      · simp [ih (List.mem_cons_self ..) hc]
    · simp [ih (List.mem_cons_of_mem _ h) hc]

/-- Indenting a text anew adds only blanks and line ends. -/
theorem mem_reindented (h : c ∈ reindented text) : c = ' ' ∨ c = '\n' ∨ c ∈ text := by
  obtain ⟨line, hline, hc⟩ := List.mem_flatMap.1 h
  rcases List.mem_append.1 hc with hc | hc
  · rcases List.mem_append.1 hc with hc | hc
    · exact .inl (by simpa using hc)
    · have hstrip := mem_of_mem_splitLines hline hc
      obtain ⟨lead, trail, hsplit, _⟩ := strip_split (dedent text)
      exact .inr (mem_dedent (by rw [hsplit]; simp [hstrip]))
  · exact .inr (.inl (by simpa using hc))

end TypeStub.Text
