import TypeStub.Proofs.Source.Spans
/-!
# Offsets and segments

A source counts its lines in bytes and cuts bytes out of its text; a segment is put together from
the characters of its lines. The main statement says that the two agree: the lines of the bytes are
the bytes of the lines, and between two places of the text both give the same piece of it.
-/

namespace TypeStub

open TypeStub.Syntax

variable {text : List Char} {c : Char}

/-! ## Bytes -/

def encoded (text : List Char) : List UInt8 :=
  text.flatMap String.utf8EncodeChar

theorem encoded_cons (c : Char) (text : List Char) :
    encoded (c :: text) = String.utf8EncodeChar c ++ encoded text := List.flatMap_cons

theorem encoded_append (a b : List Char) : encoded (a ++ b) = encoded a ++ encoded b :=
  List.flatMap_append

theorem length_encoded (text : List Char) : (encoded text).length = byteLength text := by
  induction text with
  | nil => rfl
  | cons c text ih =>
    rw [encoded_cons, List.length_append, String.length_utf8EncodeChar, ih, byteLength_cons]

/-- The lines of bytes, each with its line end: 10, 13 or 13 and 10 together. -/
def byteLines : List UInt8 → List (List UInt8)
  | [] => []
  | 13 :: 10 :: rest => [13, 10] :: byteLines rest
  | b :: rest =>
    if b == 10 || b == 13 then [b] :: byteLines rest
    else
      match byteLines rest with
      | [] => [[b]]
      | line :: lines => (b :: line) :: lines

/-- Only a character of one byte is encoded by a byte below 128, and then by its own number. -/
theorem toNat_of_mem_utf8EncodeChar {b : UInt8} (h : b ∈ String.utf8EncodeChar c) :
    b.toNat = c.toNat ∨ 128 ≤ b.toNat := by
  have hval : c.val.toNat = c.toNat := rfl
  unfold String.utf8EncodeChar at h
  simp only [hval] at h
  split at h
  · rw [List.mem_singleton.mp h]
    exact .inl (by simp; omega)
  · refine .inr ?_
    -- from here on every byte is a remainder with one of the two highest bits added
    split at h
    · simp only [List.mem_cons, List.not_mem_nil, or_false] at h
      rcases h with rfl | rfl <;> simp <;> omega
    · split at h <;> simp only [List.mem_cons, List.not_mem_nil, or_false] at h
      · rcases h with rfl | rfl | rfl <;> simp <;> omega
      · rcases h with rfl | rfl | rfl | rfl <;> simp <;> omega

theorem no_lineEnd_byte (hc : (c == '\n' || c == '\r') = false) {b : UInt8}
    (h : b ∈ String.utf8EncodeChar c) : (b == 10 || b == 13) = false := by
  simp only [Bool.or_eq_false_iff, beq_eq_false_iff_ne] at hc ⊢
  constructor
  · rintro rfl
    obtain h10 | h10 := toNat_of_mem_utf8EncodeChar h
    · exact hc.1 (Char.toNat_inj.mp h10.symm)
    · simp at h10
  · rintro rfl
    obtain h13 | h13 := toNat_of_mem_utf8EncodeChar h
    · exact hc.2 (Char.toNat_inj.mp h13.symm)
    · simp at h13

theorem byteLines_append {bs : List UInt8} (hne : bs ≠ []) (rest : List UInt8)
    (h : ∀ b ∈ bs, (b == 10 || b == 13) = false) :
    byteLines (bs ++ rest) = match byteLines rest with
      | [] => [bs]
      | line :: lines => (bs ++ line) :: lines := by
  induction bs with
  | nil => exact absurd rfl hne
  | cons b bs ih =>
    have hb := h b (by simp)
    have hstep : ∀ more, byteLines (b :: more) = match byteLines more with
        | [] => [[b]]
        | line :: lines => (b :: line) :: lines := by
      intro more
      rw [byteLines]
      · rw [hb, if_neg Bool.false_ne_true]
      · rintro _ rfl
        simp at hb
    rw [List.cons_append, hstep]
    cases bs with
    | nil => rfl
    | cons b' bs =>
      rw [ih (by simp) fun x hx => h x (List.mem_cons_of_mem _ hx)]
      cases byteLines rest <;> rfl

theorem eq_lineFeed_of_encoded {more : List UInt8} (h : encoded text = 10 :: more) :
    ∃ rest, text = '\n' :: rest := by
  cases text with
  | nil => simp [encoded] at h
  | cons c rest =>
    rw [encoded_cons] at h
    obtain ⟨b, bs, hbytes⟩ := List.exists_cons_of_ne_nil (String.utf8EncodeChar_ne_nil (c := c))
    obtain ⟨rfl, _⟩ := List.cons.inj ((congrArg (· ++ encoded rest) hbytes).symm.trans h)
    obtain hc | hc := toNat_of_mem_utf8EncodeChar (hbytes ▸ List.mem_cons_self)
    · exact ⟨rest, by rw [Char.toNat_inj.mp (show c.toNat = '\n'.toNat from hc.symm)]⟩
    · simp at hc

theorem byteLines_encoded (text : List Char) :
    byteLines (encoded text) = (sourceLines text).map encoded := by
  fun_induction sourceLines text with
  | case1 => rfl
  | case2 rest ih =>
    show byteLines (13 :: 10 :: encoded rest) = _
    rw [byteLines, ih]
    rfl
  | case3 c rest hc hend ih =>
    rw [List.map_cons, ← ih]
    simp only [Bool.or_eq_true, beq_iff_eq] at hend
    obtain rfl | rfl := hend
    · show byteLines (10 :: encoded rest) = [10] :: _
      rw [byteLines] <;> simp
    · show byteLines (13 :: encoded rest) = [13] :: _
      rw [byteLines]
      · rfl
      · rintro more _ hmore
        obtain ⟨_, rfl⟩ := eq_lineFeed_of_encoded hmore
        exact hc _ rfl rfl
  | case4 c rest hc hend hlines ih | case5 c rest hc hend line lines hlines ih =>
    rw [encoded_cons, byteLines_append String.utf8EncodeChar_ne_nil _
      fun _ => no_lineEnd_byte (Bool.eq_false_iff.mpr hend), ih, hlines]
    simp [encoded]

/-! ## Pieces -/

/-- A place of a text: a line of it, and the bytes of some characters at its start. -/
def IsPlace (text : List Char) (line col : Nat) : Prop :=
  ∃ front before after behind, sourceLines text = front ++ (before ++ after) :: behind ∧
    line = front.length + 1 ∧ col = byteLength before

/-- Byte ranges that follow each other without a gap, none of them empty. -/
def Covers : (start stop : Nat) → List (Nat × Nat) → Prop
  | start, stop, [] => start = stop
  | start, stop, range :: rest => range.1 = start ∧ start < range.2 ∧ Covers range.2 stop rest

theorem covers_rangesFrom (start : Nat) {lines : List (List Char)}
    (h : ∀ line ∈ lines, 0 < byteLength line) :
    Covers start (start + byteLength lines.flatten) (rangesFrom start (lines.map byteLength)) := by
  induction lines generalizing start with
  | nil => rfl
  | cons line lines ih =>
    have hline := h line List.mem_cons_self
    refine ⟨rfl, by omega, ?_⟩
    rw [List.flatten_cons, byteLength_append, ← Nat.add_assoc]
    exact ih _ fun line hmem => h line (List.mem_cons_of_mem _ hmem)

theorem ne_nil_of_mem_sourceLines {line : List Char} (h : line ∈ sourceLines text) :
    line ≠ [] := by
  fun_induction sourceLines text with
  | case1 => simp at h
  | case2 rest ih => grind
  | case3 c rest hc hend ih => grind
  | case4 c rest hc hend hlines ih => grind
  | case5 c rest hc hend first lines hlines ih => grind

theorem covers_lineOffsets (text : List Char) :
    Covers 0 (encoded text).length (lineOffsets text) := by
  have hpos : ∀ line ∈ sourceLines text, 0 < byteLength line := by
    intro line hline
    obtain ⟨c, rest, rfl⟩ := List.exists_cons_of_ne_nil (ne_nil_of_mem_sourceLines hline)
    obtain ⟨n, hn, _⟩ := byteLength_succ c rest
    omega
  have hcovers := covers_rangesFrom 0 hpos
  rwa [sourceLines_flatten, Nat.zero_add, ← length_encoded] at hcovers

/-! ## The text between two places -/

/-- The span of a piece of a text and what stands before it: a piece of one line, or the end of a
line, whole lines and the start of another line. -/
inductive Between (text : List Char) : Span → (before piece : List Char) → Prop
  | oneLine {front before piece after behind}
      (hlines : sourceLines text = front ++ (before ++ (piece ++ after)) :: behind) :
      Between text ⟨front.length + 1, byteLength before, front.length + 1,
        byteLength before + byteLength piece⟩ (front.flatten ++ before) piece
  | severalLines {front before first middle last after behind}
      (hlines : sourceLines text
        = front ++ (before ++ first) :: (middle ++ (last ++ after) :: behind)) :
      Between text ⟨front.length + 1, byteLength before, front.length + middle.length + 2,
        byteLength last⟩ (front.flatten ++ before) (first ++ middle.flatten ++ last)

theorem between_of_isPlace {span : Span} (hstart : IsPlace text span.line span.col)
    (hstop : IsPlace text span.endLine span.endCol)
    (hle : span.line < span.endLine ∨ span.line = span.endLine ∧ span.col ≤ span.endCol) :
    ∃ before piece, Between text span before piece := by
  obtain ⟨line, col, endLine, endCol⟩ := span
  obtain ⟨front, before, first, behind, hlines, rfl, rfl⟩ := hstart
  obtain ⟨front', last, after, behind', hlines', rfl, rfl⟩ := hstop
  simp only at hle
  rw [hlines] at hlines'
  obtain hlt | ⟨heq, hcol⟩ := hle
  · -- the first line is one of those in front of the last one
    obtain ⟨m, rfl, hm⟩ | ⟨m, rfl, _⟩ := List.append_eq_append_iff.mp hlines'
    · cases m with
      | nil => simp at hlt
      | cons x middle =>
        obtain ⟨rfl, rfl⟩ := List.cons.inj hm
        rw [show (front ++ (before ++ first) :: middle).length + 1
          = front.length + middle.length + 2 by simp [Nat.add_assoc]]
        exact ⟨_, _, .severalLines hlines⟩
    · rw [List.length_append] at hlt
      omega
  · obtain ⟨rfl, hmore⟩ := List.append_inj hlines' (by omega)
    obtain ⟨hline, rfl⟩ := List.cons.inj hmore
    obtain ⟨piece, rfl, rfl⟩ | ⟨piece, rfl, rfl⟩ := List.append_eq_append_iff.mp hline
    · rw [byteLength_append]
      exact ⟨_, _, .oneLine hlines⟩
    · rw [byteLength_append] at hcol ⊢
      cases piece with
      | nil =>
        rw [List.append_nil] at hlines
        exact ⟨_, _, @Between.oneLine text front last [] first behind hlines⟩
      | cons c piece =>
        obtain ⟨n, hn, _⟩ := byteLength_succ c piece
        omega

section
variable {s : Source} {span : Span} {before piece : List Char}

theorem Between.text_eq (h : Between text span before piece) :
    ∃ after, text = before ++ (piece ++ after) := by
  rw [← sourceLines_flatten text]
  cases h with
  | @oneLine _ _ _ after behind hlines | @severalLines _ _ _ _ _ after behind hlines =>
    exact ⟨after ++ behind.flatten, by rw [hlines]; simp⟩

theorem Between.offsetsFrom_eq (h : Between s.text span before piece) :
    s.offsetsFrom span [] = .ok (byteLength before, byteLength before + byteLength piece) := by
  cases h with
  | oneLine hlines =>
    obtain ⟨stop, hget⟩ := lineOffsets_get hlines
    simp only [Source.offsetsFrom, startWithDecorators, bind, Except.bind, Nat.add_sub_cancel, hget]
    simp [byteLength_append, Nat.add_assoc, pure, Except.pure]
  | @severalLines front before first middle last after behind hlines =>
    obtain ⟨stop, hget⟩ := lineOffsets_get hlines
    have hlines' : sourceLines s.text
        = (front ++ (before ++ first) :: middle) ++ (last ++ after) :: behind := by simp [hlines]
    obtain ⟨stop', hget'⟩ := lineOffsets_get hlines'
    have hindex : front.length + middle.length + 2 - 1
        = (front ++ (before ++ first) :: middle).length := by simp [Nat.add_assoc]
    simp only [Source.offsetsFrom, startWithDecorators, bind, Except.bind, Nat.add_sub_cancel, hget,
      hindex, hget']
    simp [byteLength_append, Nat.add_assoc, pure, Except.pure]

theorem Between.segment_eq (h : Between s.text span before piece) : s.segment span = .ok piece := by
  cases h with
  | oneLine hlines =>
    simp [Source.segment, hlines, sliceBytes_middle]
  | @severalLines front before first middle last after behind hlines =>
    have hfirst : (sourceLines s.text)[front.length]? = some (before ++ first) := by simp [hlines]
    have hlast :
        (sourceLines s.text)[front.length + middle.length + 1]? = some (last ++ after) := by
      rw [hlines, Nat.add_assoc, List.getElem?_append_right (by omega), Nat.add_sub_cancel_left]
      simp
    have hmiddle : ((sourceLines s.text).drop (front.length + 1)).take middle.length = middle := by
      rw [hlines]
      simp
    have hne : ¬ front.length = front.length + middle.length + 1 := by omega
    have hcount : front.length + middle.length + 1 - (front.length + 1) = middle.length := by omega
    simp [Source.segment, hfirst, hlast, hne, hcount, hmiddle, cut_byteLength, bind, Except.bind,
      pure, Except.pure]

end

/-- The byte ranges of the lines are those of the bytes' own lines, and follow each other from the
start of the text to its end. Between any two places of the text, the bytes that are cut out are
those of the segment, so that verified offsets are always given. -/
theorem Source.cut_eq_segment (s : Source) :
    lineOffsets s.text = rangesFrom 0 ((byteLines (encoded s.text)).map List.length) ∧
    Covers 0 (encoded s.text).length (lineOffsets s.text) ∧
    ∀ span : Span, IsPlace s.text span.line span.col →
    IsPlace s.text span.endLine span.endCol →
      (span.line < span.endLine ∨ span.line = span.endLine ∧ span.col ≤ span.endCol) →
      ∃ start stop piece, s.offsetsFrom span [] = .ok (start, stop) ∧
        s.cut start stop = .ok piece ∧ s.segment span = .ok piece ∧
        encoded piece = ((encoded s.text).take stop).drop start ∧
        s.offsets span [] true = .ok (start, stop) := by
  refine ⟨?_, covers_lineOffsets s.text, ?_⟩
  · have hsize : List.length ∘ encoded = byteLength := funext length_encoded
    rw [byteLines_encoded, List.map_map, hsize, lineOffsets]
  · intro span hstart hstop hle
    obtain ⟨before, piece, h⟩ := between_of_isPlace hstart hstop hle
    obtain ⟨after, htext⟩ := h.text_eq
    have hcut : s.cut (byteLength before) (byteLength before + byteLength piece) = .ok piece := by
      rw [Source.cut, htext, sliceBytes_middle]
    refine ⟨_, _, piece, h.offsetsFrom_eq, hcut, h.segment_eq, ?_, ?_⟩
    · rw [htext, encoded_append, encoded_append, ← length_encoded, ← length_encoded,
        ← List.append_assoc, ← List.length_append, List.take_left, List.drop_left]
    · simp [Source.offsets, h.offsetsFrom_eq, hcut, h.segment_eq, bind, Except.bind, pure,
        Except.pure]

/-- Between characters of several bytes, and over all three kinds of line ends. -/
theorem Source.cut_eq_segment_on_sample :
    let s : Source := ⟨"é\r\nß\rc\x0cd\n".toList, "", none, false⟩
    IsPlace s.text 1 2 ∧ IsPlace s.text 3 2 ∧
      ∃ start stop piece, s.offsetsFrom ⟨1, 2, 3, 2⟩ [] = .ok (start, stop) ∧
        s.cut start stop = .ok piece ∧ s.segment ⟨1, 2, 3, 2⟩ = .ok piece ∧
        encoded piece = ((encoded s.text).take stop).drop start ∧
        s.offsets ⟨1, 2, 3, 2⟩ [] true = .ok (start, stop) := by
  intro s
  have hstart : IsPlace s.text 1 2 :=
    ⟨[], ['é'], ['\r', '\n'],
      [['ß', '\r'], ['c', '\x0c', 'd', '\n']], by decide, rfl, by decide⟩
  have hstop : IsPlace s.text 3 2 :=
    ⟨[['é', '\r', '\n'], ['ß', '\r']], ['c', '\x0c'], ['d', '\n'],
      [], by decide, rfl, by decide⟩
  exact ⟨hstart, hstop, (Source.cut_eq_segment s).2.2 ⟨1, 2, 3,
    2⟩ hstart hstop (.inl (by decide))⟩

end TypeStub
