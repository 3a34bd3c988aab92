import TypeStub.Proofs.Lexing.Scanning
import TypeStub.Syntax.Parser.Literal
import TypeStub.Text.Quoted
/-!
# Literals that are written

The decimal digits of a number are scanned as the number, and the quoted form of a text is scanned
as one literal, whose escapes stand for the text (`scanNumber_decimal`, `decodeText_quotedBody`).
-/

namespace TypeStub.Syntax

open TypeStub.Number TypeStub.Text

/-! ## Digits -/

/-- Hexadecimal digits denote what they were written for. -/
theorem hexValue?_hexDigit : ∀ n < 16, hexValue? (hexDigit n) = some n := by decide

theorem ofDigits_concat (base : Nat) (ds : List Char) (c : Char) :
    ofDigits base (ds ++ [c]) = ofDigits base ds * base + (hexValue? c).getD 0 := by
  simp [ofDigits, List.foldl_append]

theorem length_hexDigits (width n : Nat) : (hexDigits width n).length = width := by
  induction width generalizing n with
  | zero => rfl
  | succ width ih => simp [hexDigits, ih]

variable {n : Nat} {c quote : Char} {ds rest : List Char} {ps : List Nat}

theorem isHexDigit_of_mem_hexDigits {width} (h : c ∈ hexDigits width n) :
    isHexDigit c = true := by
  induction width generalizing n with
  | zero => cases h
  | succ width ih =>
    rcases List.mem_append.1 h with h | h
    · exact ih h
    · obtain rfl := List.mem_singleton.1 h
      rw [isHexDigit, hexValue?_hexDigit _ (Nat.mod_lt _ (by decide))]
      rfl

theorem ofDigits_hexDigits (width n : Nat) :
    ofDigits 16 (hexDigits width n) = n % Nat.pow 16 width := by
  induction width generalizing n with
  | zero => exact (Nat.mod_one n).symm
  | succ width ih =>
    have hlast : n % 16 < 16 := Nat.mod_lt _ (by decide)
    have hpow : Nat.pow 16 (width + 1) = 16 * Nat.pow 16 width := Nat.mul_comm _ _
    rw [hexDigits, ofDigits_concat, ih, hexValue?_hexDigit _ hlast, hpow, Nat.mod_mul]
    simp only [Option.getD_some]
    omega

theorem hexEscape?_hexDigits {width} (h : n < Nat.pow 16 width) (rest : List Char) :
    hexEscape? width (hexDigits width n ++ rest) = some n := by
  have hlength := length_hexDigits width n
  have htake : (hexDigits width n ++ rest).take width = hexDigits width n :=
    List.take_left' hlength
  have hall : (hexDigits width n).all isHexDigit = true :=
    List.all_eq_true.2 fun c hc => isHexDigit_of_mem_hexDigits hc
  have hvalue : ofDigits 16 (hexDigits width n) = n :=
    (ofDigits_hexDigits width n).trans (Nat.mod_eq_of_lt h)
  simp [hexEscape?, htake, hlength, hall, hvalue]

/-! ## Numbers -/

theorem hexValue?_of_isDigit (h : isDigit c = true) : hexValue? c = some (c.toNat - '0'.toNat) := by
  simp only [isDigit, Bool.and_eq_true, decide_eq_true_eq] at h
  rw [hexValue?, if_pos h]

theorem ofDigits_eq_ofDigitChars (h : ∀ c ∈ ds, isDigit c = true) :
    ofDigits 10 ds = Nat.ofDigitChars 10 ds 0 := by
  have hfold : ∀ start, ds.foldl (fun n c => n * 10 + (hexValue? c).getD 0) start
      = Nat.ofDigitChars 10 ds start := by
    induction ds with
    | nil => intro start; rfl
    | cons c ds ih =>
      obtain ⟨hc, hds⟩ := List.forall_mem_cons.1 h
      intro start
      rw [List.foldl_cons, Nat.ofDigitChars_cons, ih hds, hexValue?_of_isDigit hc, Nat.mul_comm]
      rfl
  exact hfold 0

/-- What may stand behind a number that is written with digits alone: nothing that goes on with it.
-/
def EndsNumber (rest : List Char) : Prop :=
  ∀ c ∈ rest.head?, isNameChar c = false ∧ c ≠ '.'

theorem digitRun_digits (hds : ∀ c ∈ ds, isDigit c = true) (hrest : EndsNumber rest) :
    digitRun isDigit (ds ++ rest) = some (ds, rest) := by
  induction ds with
  | nil =>
    cases rest with
    | nil => rfl
    | cons c rest =>
      obtain ⟨hname, -⟩ := hrest c rfl
      have hc : c ≠ '_' := by rintro rfl; revert hname; decide
      have hdigit : isDigit c = false := by
        cases hd : isDigit c with
        | false => rfl
        | true => simp [isNameChar, hd] at hname
      rw [List.nil_append, digitRun.eq_def]
      split
      iterate 2
        · next heq => exact absurd (List.cons.inj heq).1 hc
      · next heq =>
        cases heq
        rw [hdigit]
        rfl
      · next heq => cases heq
  | cons c ds ih =>
    obtain ⟨hc, hds⟩ := List.forall_mem_cons.1 hds
    have hne : c ≠ '_' := by rintro rfl; revert hc; decide
    rw [List.cons_append, digitRun.eq_def]
    split
    iterate 2
      · next heq => exact absurd (List.cons.inj heq).1 hne
    · next heq =>
      cases heq
      rw [if_pos hc, ih hds]
      rfl
    · next heq => cases heq

theorem plainDigits_of_digits (hds : ∀ c ∈ ds, isDigit c = true) : plainDigits ds = ds := by
  refine List.filter_eq_self.2 fun c hc => bne_iff_ne.2 ?_
  rintro rfl
  exact absurd (hds _ hc) (by decide)

theorem scanDecimalTail_digits (hds : ∀ c ∈ ds, isDigit c = true)
    (hzero : ds.head? = some '0' → ds = ['0']) (hlength : ds.length ≤ maxIntDigits)
    (hrest : EndsNumber rest) :
    scanDecimalTail ds rest = some ⟨.int (ofDigits 10 ds), ds, rest⟩ := by
  have hend : numberMayEnd rest = true := by
    cases rest with
    | nil => rfl
    | cons c rest => simp [numberMayEnd, (hrest c rfl).1]
  have hfraction : scanFraction rest = some (false, [], rest) := by
    unfold scanFraction
    split
    iterate 2 exact absurd rfl (hrest '.' rfl).2
    · rfl
  have hletter : ∀ c more, rest = c :: more → c ≠ 'e' ∧ c ≠ 'E' ∧ c ≠ 'j' ∧
      c ≠ 'J' := by
    rintro c more rfl
    have hname := (hrest c rfl).1
    refine ⟨?_, ?_, ?_, ?_⟩ <;> (rintro rfl; revert hname; decide)
  have hexponent : scanExponent rest = some (none, [], rest) := by
    unfold scanExponent
    split
    · next e s more =>
      obtain ⟨he, hE, -⟩ := hletter e _ rfl
      simp [he, hE]
    · rfl
  have hleading : (ds.head? == some '0' && ds.any (· != '0')) = false := by
    by_cases h : ds.head? = some '0'
    · rw [hzero h]
      rfl
    · simp [h]
  unfold scanDecimalTail
  simp only [hfraction, hexponent, Option.bind_eq_bind, Option.bind_some, plainDigits_of_digits hds,
    Bool.false_eq_true, if_false, List.append_nil, hend, if_true, Option.isSome_none, Bool.or_false,
    show plainDigits [] = [] from rfl]
  have hints : (if (ds.head? == some '0' && ds.any (· != '0')) = true then none
      else if ds.length > maxIntDigits then none
      else pure ⟨.int (ofDigits 10 ds), ds, rest⟩)
      = some (⟨.int (ofDigits 10 ds), ds, rest⟩ : ScannedNumber) := by
    rw [hleading, if_neg Bool.false_ne_true, if_neg (Nat.not_lt.2 hlength)]
    rfl
  cases rest with
  | nil => simpa using hints
  | cons c more =>
    obtain ⟨-, -, hj, hJ⟩ := hletter c more rfl
    simpa [hj, hJ] using hints

/-- Digits without a zero in front that is not needed are scanned as one integer. -/
theorem scanNumber_digits (hds : ∀ c ∈ ds, isDigit c = true) (hne : ds ≠ [])
    (hzero : ds.head? = some '0' → ds = ['0']) (hlength : ds.length ≤ maxIntDigits)
    (hrest : EndsNumber rest) :
    scanNumber (ds ++ rest) = some ⟨.int (ofDigits 10 ds), ds, rest⟩ := by
  have htail := scanDecimalTail_digits hds hzero hlength hrest
  have hrun := digitRun_digits hds hrest
  obtain ⟨c, ds, rfl⟩ := List.exists_cons_of_ne_nil hne
  have hc := (List.forall_mem_cons.1 hds).1
  rw [List.cons_append] at hrun ⊢
  rw [scanNumber.eq_def]
  split
  · next d more heq =>
    obtain ⟨rfl, hmore⟩ := List.cons.inj heq
    obtain rfl : ds = [] := (List.cons.inj (hzero rfl)).2
    rw [List.nil_append] at hmore
    have hname := (hrest d (by rw [hmore]; rfl)).1
    have hletter : d ≠ 'x' ∧ d ≠ 'X' ∧ d ≠ 'o' ∧ d ≠ 'O' ∧ d ≠ 'b' ∧
        d ≠ 'B' := by
      refine ⟨?_, ?_, ?_, ?_, ?_, ?_⟩ <;> (rintro rfl; revert hname; decide)
    obtain ⟨hx, hX, ho, hO, hb, hB⟩ := hletter
    rw [List.nil_append, hmore] at hrun
    simpa [hx, hX, ho, hO, hb, hB, hrun, hmore] using htail
  · next heq =>
    obtain ⟨rfl, -⟩ := List.cons.inj heq
    exact absurd hc (by decide)
  · simpa [hrun] using htail

theorem head?_toDigits_ne_zero (h : 0 < n) : (Nat.toDigits 10 n).head? ≠ some '0' := by
  induction n using Nat.strongRecOn with
  | ind n ih =>
    rw [Nat.toDigits_eq_if (by decide)]
    split
    · simp [Nat.ne_of_gt h]
    · next hten =>
      have hpos : 0 < n / 10 := by omega
      have hrest := ih (n / 10) (by omega) hpos
      cases hdigits : Nat.toDigits 10 (n / 10) with
      | nil => exact absurd hdigits Nat.toDigits_ne_nil
      | cons c ds => simpa [hdigits] using hrest

theorem scanNumber_decimal (h : n < Nat.pow 10 maxIntDigits) (hrest : EndsNumber rest) :
    scanNumber ((decimal n).toList ++ rest) = some ⟨.int n, (decimal n).toList, rest⟩ := by
  have hdigits : ∀ c ∈ (decimal n).toList, isDigit c = true := fun c => isDigit_of_mem_decimal
  have hvalue : ofDigits 10 (decimal n).toList = n := by
    rw [ofDigits_eq_ofDigitChars hdigits, decimal, String.toList_ofList]
    exact Nat.ofDigitChars_toDigits (by decide) (by decide)
  have hscan := scanNumber_digits hdigits (by simp [decimal, Nat.toDigits_ne_nil]) ?_ ?_ hrest
  · rwa [hvalue] at hscan
  · rw [decimal, String.toList_ofList]
    intro hzero
    cases Nat.eq_zero_or_pos n with
    | inl hn => rw [hn, Nat.toDigits_zero]
    | inr hn => exact absurd hzero (head?_toDigits_ne_zero hn)
  · -- said of any bound, so that the power is not evaluated
    have hlength (k : Nat) (hk : 0 < k) (hn : n < Nat.pow 10 k) :
      (Nat.toDigits 10 n).length ≤ k :=
      (Nat.length_toDigits_le_iff (by decide) hk).2 hn
    rw [decimal, String.toList_ofList]
    exact hlength maxIntDigits (by decide) h

/-! ## Texts -/

/-- The text has neither of the two characters that are not taken as they are anywhere. -/
def Clean (text : List Char) : Prop :=
  ∀ c ∈ text, c ≠ '\r' ∧ c ≠ '\x00'

theorem Clean.append {a b} (ha : Clean a) (hb : Clean b) : Clean (a ++ b) :=
  List.forall_mem_append.2 ⟨ha, hb⟩

/-- Between quotes, a stretch of characters that stands for one code point and ends nothing. -/
structure Shows (quote : Char) (w : List Char) (n : Nat) : Prop where
  clean : Clean w
  body : ∀ rest, stringBody quote false (w ++ rest)
    = (stringBody quote false rest).map fun x => (w ++ x.1, x.2)
  value : ∀ rest, decodeEscapes textEscape? 0 (w ++ rest)
    = (decodeEscapes textEscape? 0 rest).map (n :: ·)

/-- A character that is neither special nor a quote stands for itself. -/
theorem stringBody_plain (hslash : c ≠ '\\') (hquote : c ≠ quote) (hline : c ≠ '\n')
    (rest : List Char) : stringBody quote false (c :: rest)
      = (stringBody quote false rest).map fun x => (c :: x.1, x.2) := by
  rw [stringBody_cons hslash]
  simp [hquote, hline]

theorem shows_plain (hclean : Clean [c]) (hslash : c ≠ '\\') (hquote : c ≠ quote)
    (hline : c ≠ '\n') : Shows quote [c] c.toNat where
  clean := hclean
  body rest := by simpa using stringBody_plain hslash hquote hline rest
  value rest := by simp [decodeEscapes, hslash]

theorem stringBody_plainChars {w} (h : ∀ c ∈ w, c ≠ '\\' ∧ c ≠ quote ∧ c ≠ '\n')
    (rest : List Char) : stringBody quote false (w ++ rest)
      = (stringBody quote false rest).map fun x => (w ++ x.1, x.2) := by
  induction w with
  | nil => simp
  | cons c w ih =>
    obtain ⟨⟨hslash, hquote, hline⟩, hw⟩ := List.forall_mem_cons.1 h
    rw [List.cons_append, stringBody_plain hslash hquote hline, ih hw, Option.map_map]
    rfl

theorem decodeEscapes_skip (escape? : List Char → Option (List Nat × Nat)) (w rest : List Char) :
    decodeEscapes escape? w.length (w ++ rest) = decodeEscapes escape? 0 rest := by
  induction w with
  | nil => rfl
  | cons c w ih => rwa [List.cons_append, List.length_cons, decodeEscapes]

/-- A backslash takes the next character with it, and what it escapes stands for one code point. -/
theorem shows_escape {w} (hclean : Clean (c :: w))
    (hw : ∀ c ∈ w, c ≠ '\\' ∧ c ≠ quote ∧ c ≠ '\n')
    (hvalue : ∀ rest, textEscape? (c :: (w ++ rest)) = some ([n], w.length + 1)) :
    Shows quote ('\\' :: c :: w) n where
  clean := List.forall_mem_cons.2 ⟨by decide, hclean⟩
  body rest := by
    rw [List.cons_append, List.cons_append, stringBody, stringBody_plainChars hw, Option.map_map]
    rfl
  value rest := by
    have hskip := decodeEscapes_skip textEscape? (c :: w) rest
    rw [List.length_cons, List.cons_append] at hskip
    rw [List.cons_append, List.cons_append, decodeEscapes]
    simp only [beq_self_eq_true, if_true, hvalue, hskip]
    rfl

/-- The quotes that a literal is written in. -/
def IsQuote (c : Char) : Prop := c = '\'' ∨ c = '"'

theorem hexDigits_plain (hquote : IsQuote quote) (width n : Nat) :
    ∀ c ∈ hexDigits width n, c ≠ '\\' ∧ c ≠ quote ∧ c ≠ '\n' := by
  intro c hc
  have hhex := isHexDigit_of_mem_hexDigits hc
  refine ⟨?_, ?_, ?_⟩
  · rintro rfl
    revert hhex
    decide
  · rcases hquote with rfl | rfl <;> (rintro rfl; revert hhex; decide)
  · rintro rfl
    revert hhex
    decide

theorem clean_hexDigits (width n : Nat) : Clean (hexDigits width n) := by
  intro c hc
  have hhex := isHexDigit_of_mem_hexDigits hc
  constructor <;> (rintro rfl; revert hhex; decide)

theorem clean_hexEscape (hc : Clean [c]) (width n : Nat) : Clean (c :: hexDigits width n) :=
  hc.append (clean_hexDigits width n)

theorem shows_escapePoint (hquote : IsQuote quote) (hn : n < 0x110000) :
    Shows quote (escapePoint n) n := by
  have hnone : ∀ c ∈ ([] : List Char), c ≠ '\\' ∧ c ≠ quote ∧ c ≠ '\n' := by simp
  unfold escapePoint
  iterate 4
    split
    · next h =>
      obtain rfl := beq_iff_eq.1 h
      exact shows_escape (by simp [Clean]) hnone fun _ => rfl
  split
  · next h =>
    refine shows_escape (clean_hexEscape (by simp [Clean]) 2 n) (hexDigits_plain hquote 2 n)
      fun rest => ?_
    simp [textEscape?, commonEscape?, hexEscape?_hexDigits (show n < Nat.pow 16 2 from h),
      length_hexDigits]
  split
  · next h =>
    refine shows_escape (clean_hexEscape (by simp [Clean]) 4 n) (hexDigits_plain hquote 4 n)
      fun rest => ?_
    simp [textEscape?, commonEscape?, controlEscape?, octalDigits,
      hexEscape?_hexDigits (show n < Nat.pow 16 4 from h), length_hexDigits]
  · refine shows_escape (clean_hexEscape (by simp [Clean]) 8 n) (hexDigits_plain hquote 8 n)
      fun rest => ?_
    have hwide : n < Nat.pow 16 8 := Nat.lt_trans hn (by decide)
    simp [textEscape?, commonEscape?, controlEscape?, octalDigits, hexEscape?_hexDigits hwide,
      length_hexDigits, Nat.le_of_lt_succ hn]

theorem toNat_ofNat (h : n.isValidChar) : (Char.ofNat n).toNat = n := by
  rw [Char.ofNat, dif_pos h]
  rfl

theorem lt_of_isValidChar (h : n.isValidChar) : n < 0x110000 := by
  rcases h with h | ⟨-, h⟩
  · exact Nat.lt_trans h (by decide)
  · exact h

/-- Of the characters that are never shown as they are, the ones that matter to the lexer. -/
theorem isPrintable_control : ∀ n ∈ [0, 10, 13], isPrintable n = false := by decide

theorem isValidChar_of_isPrintable (h : isPrintable n = true) : n.isValidChar := by
  unfold isPrintable at h
  split at h
  · exact .inl (by omega)
  · exact of_decide_eq_true (Bool.and_eq_true_iff.1 h).1

theorem shows_shownPoint (hquote : IsQuote quote) (hn : n < 0x110000) (hne : n ≠ quote.toNat) :
    Shows quote (shownPoint n) n := by
  unfold shownPoint
  split
  · exact shows_escapePoint hquote hn
  · next h =>
    simp only [Bool.or_eq_true, beq_iff_eq, Bool.not_eq_true', not_or, Bool.not_eq_false] at h
    have hvalue := toNat_ofNat (isValidChar_of_isPrintable h.2)
    have hshow : Shows quote [Char.ofNat n] (Char.ofNat n).toNat := by
      have hcontrol : ∀ c : Char, c.toNat ∈ [0, 10, 13] → Char.ofNat n ≠ c := by
        rintro c hc rfl
        rw [hvalue] at hc
        rw [isPrintable_control n hc] at h
        cases h.2
      refine shows_plain ?_ ?_ ?_ (hcontrol _ (by decide))
      · exact List.forall_mem_singleton.2 ⟨hcontrol _ (by decide), hcontrol _ (by decide)⟩
      · exact fun heq => h.1 (by rw [← hvalue, heq]; rfl)
      · exact fun heq => hne (by rw [← hvalue, heq])
    rwa [hvalue] at hshow

theorem isQuote_plainQuote (ps : List Nat) : IsQuote (plainQuote ps) := by
  unfold plainQuote IsQuote
  split <;> simp

theorem shows_quotedPoint (hquote : IsQuote quote) (hn : n < 0x110000) :
    Shows quote (if n == quote.toNat then ['\\', quote] else shownPoint n) n := by
  split
  · next h =>
    obtain rfl := beq_iff_eq.1 h
    refine shows_escape ?_ (by simp) fun rest => ?_
    · rcases hquote with rfl | rfl <;> simp [Clean]
    · rcases hquote with rfl | rfl <;> rfl
  · next h => exact shows_shownPoint hquote hn (by simpa using h)

/-- Stretches that stand for code points one by one stand for the text. -/
theorem shows_flatMap {show? : Nat → List Char} (h : ∀ n ∈ ps, Shows quote (show? n) n)
    (rest : List Char) : stringBody quote false (ps.flatMap show? ++ rest)
        = (stringBody quote false rest).map (fun x => (ps.flatMap show? ++ x.1, x.2)) ∧
      decodeEscapes textEscape? 0 (ps.flatMap show?) = some ps := by
  induction ps with
  | nil => simp [decodeEscapes]
  | cons n ps ih =>
    obtain ⟨hn, hps⟩ := List.forall_mem_cons.1 h
    obtain ⟨hbody, hvalue⟩ := ih hps
    constructor
    · rw [List.flatMap_cons, List.append_assoc, hn.body, hbody, Option.map_map]
      simp [Function.comp_def]
    · rw [List.flatMap_cons, hn.value, hvalue]
      rfl

theorem clean_quotedBody (h : ∀ n ∈ ps, n < 0x110000) : Clean (quotedBody ps) := by
  intro c hc
  obtain ⟨n, hn, hc⟩ := List.mem_flatMap.1 hc
  exact (shows_quotedPoint (isQuote_plainQuote ps) (h n hn)).clean c hc

/-- **The inside of a quoted text ends at its closing quote and stands for the text.** -/
theorem decodeText_quotedBody (h : ∀ n ∈ ps, n < 0x110000) :
    decodeText false (quotedBody ps) = some ps ∧
      ∀ rest, stringBody (plainQuote ps) false (quotedBody ps ++ plainQuote ps :: rest)
        = some (quotedBody ps, rest) := by
  have hshows : ∀ n ∈ ps, Shows (plainQuote ps) _ n :=
    fun n hn => shows_quotedPoint (isQuote_plainQuote ps) (h n hn)
  have hslash : plainQuote ps ≠ '\\' := by
    rcases isQuote_plainQuote ps with hq | hq <;> (rw [hq]; decide)
  refine ⟨(shows_flatMap hshows []).2, fun rest => ?_⟩
  rw [quotedBody, (shows_flatMap hshows _).1, stringBody_cons hslash]
  simp

def quotedToken (letters : List Char) (ps : List Nat) : StringToken :=
  { letters, quotes := 1, body := quotedBody ps }

theorem quotedToken_written (h : ∀ n ∈ ps, n < 0x110000) (marked : Bool) :
    (quotedToken (if marked then ['u'] else []) ps).Written (plainQuote ps) where
  quoted := isQuote_plainQuote ps
  letters := by cases marked <;> simp [quotedToken]
  allowed := by cases marked <;> simp [quotedToken, stringLetters]
  quotes := .inl rfl
  body after := by simpa [quotedToken, closingQuotes] using (decodeText_quotedBody h).2 after

end TypeStub.Syntax
