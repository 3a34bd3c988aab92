import TypeStub.Proofs.Text.Lines
import TypeStub.Syntax.Lexer
/-!
# What scanners take

Every scanner divides its text into the characters it takes and the rest. It takes at least one
character, and neither the first nor the last of them is a line end.
-/

namespace TypeStub.Syntax

open TypeStub.Number TypeStub.Text

/-- A stretch of characters that can be a token: it starts and ends within a line. -/
structure Solid (text : List Char) : Prop where
  start : ∃ c rest, text = c :: rest ∧ c ≠ '\n'
  stop : ∃ init c, text = init ++ [c] ∧ c ≠ '\n'

theorem Solid.of_notMem {text} (hne : text ≠ []) (h : '\n' ∉ text) : Solid text where
  start := by
    obtain ⟨c, rest, rfl⟩ := List.exists_cons_of_ne_nil hne
    exact ⟨c, rest, rfl, fun hc => h (by simp [hc])⟩
  stop := by
    refine ⟨text.dropLast, text.getLast hne, (List.dropLast_concat_getLast hne).symm, ?_⟩
    exact fun hc => h (hc ▸ List.getLast_mem hne)

theorem Solid.ne_nil {text} (h : Solid text) : text ≠ [] := by
  obtain ⟨c, rest, rfl, _⟩ := h.start
  simp

/-! ## Plain tokens -/

/-- The words that introduce anonymous functions, comprehensions, `await` and `yield`. -/
def outerWords : List String := ["lambda", "for", "async", "await", "yield"]

/-- A token with which none of these starts, and no string with expressions in braces. -/
def TokenKind.isPlain : TokenKind → Bool
  | .string literal => !literal.isFormatted
  | .keyword word => !outerWords.contains word
  | _ => true

/-! ## Numbers -/

variable {digit : Char → Bool} {cs ds r more rest taken bs : List Char} {kind : TokenKind}

theorem digitRun_split (hdigit : digit '\n' = false) (h : digitRun digit cs = some (ds, r)) :
    cs = ds ++ r ∧ '\n' ∉ ds := by
  fun_induction digitRun digit cs generalizing ds r with
  | case1 c rest hc ih | case4 c rest _ _ hc ih =>
    obtain ⟨⟨ds', r'⟩, hrest, heq⟩ := Option.map_eq_some_iff.1 h
    cases heq
    obtain ⟨rfl, hds⟩ := ih hrest
    exact ⟨rfl, by simpa [hds] using fun hcc => by simp [hcc ▸ hc] at hdigit⟩
  | case2 => cases h
  | case3 => cases h
  | case5 c rest | case6 =>
    cases h
    exact ⟨rfl, by simp⟩

theorem digitRunFrom_split (hdigit : digit '\n' = false)
    (h : digitRunFrom digit cs = some (ds, r)) : cs = ds ++ r ∧ '\n' ∉ ds := by
  cases cs with
  | nil => cases h
  | cons c rest =>
    rw [digitRunFrom] at h
    split at h
    · exact digitRun_split hdigit h
    · cases h

theorem digitRun_ne_nil {c} (hc : isDigit c = true)
    (h : digitRun isDigit (c :: more) = some (ds, r)) : ds ≠ [] := by
  unfold digitRun at h
  split at h
  · next heq =>
    obtain ⟨rfl, _⟩ := List.cons.inj heq
    exact absurd hc (by decide)
  · cases h
  · next heq =>
    cases heq
    rw [if_pos hc] at h
    obtain ⟨⟨ds', r'⟩, _, heq⟩ := Option.map_eq_some_iff.1 h
    obtain ⟨rfl, _⟩ := Prod.mk.inj heq
    simp
  · next heq => cases heq

def Constant.isNumber : Constant → Bool
  | .int _ | .float _ | .imaginary _ => true
  | _ => false

/-- What a number takes, characters without a line end, and what it gives. -/
structure ScannedNumber.Splits (n : ScannedNumber) (cs : List Char) : Prop where
  covers : cs = n.text ++ n.rest
  nonempty : n.text ≠ []
  line : '\n' ∉ n.text
  number : n.value.isNumber = true

theorem digitMark_split (cs : List Char) : (if cs.head? == some '_' then ['_'] else []) ++
      (match cs with | '_' :: r => r | r => r) = cs := by
  split
  · next hmark =>
    obtain ⟨r, rfl⟩ := List.head?_eq_some_iff.1 (beq_iff_eq.1 hmark)
    rfl
  · next hmark =>
    split
    · exact absurd rfl hmark
    · rfl

theorem scanBased_split {lead base n} (hdigit : digit '\n' = false) (hlead : '\n' ∉ lead)
    (hne : lead ≠ []) (h : scanBased lead base digit cs = some n) : n.Splits (lead ++ cs) := by
  unfold scanBased at h
  obtain ⟨⟨ds, rest⟩, hrun, h⟩ := Option.bind_eq_some_iff.1 h
  obtain ⟨hsplit, hds⟩ := digitRunFrom_split hdigit hrun
  have hn : n = ⟨.int (ofDigits base (plainDigits ds)),
      lead ++ (if cs.head? == some '_' then ['_'] else []) ++ ds, rest⟩ := by
    simp only at h
    split at h
    · split at h
      · cases h
      · split at h
        · exact (Option.some.inj h).symm
        · cases h
    · split at h
      · exact (Option.some.inj h).symm
      · cases h
  subst hn
  refine ⟨?_, by simp [hne], ?_, rfl⟩
  · simp only [List.append_assoc]
    rw [← hsplit]
    exact congrArg (lead ++ ·) (digitMark_split cs).symm
  · simp only [List.mem_append, not_or]
    refine ⟨⟨hlead, ?_⟩, hds⟩
    split <;> simp

theorem scanExponent_split {text e} (h : scanExponent cs = some (e, text, rest)) :
    cs = text ++ rest ∧ '\n' ∉ text := by
  unfold scanExponent at h
  split at h
  · next mark sign more =>
    split at h
    · next hmark =>
      have hmark' : mark ≠ '\n' := by rintro rfl; simp at hmark
      split at h
      · next hsign =>
        obtain ⟨⟨ds, r⟩, hrun, h⟩ := Option.bind_eq_some_iff.1 h
        obtain ⟨hsplit, hds⟩ := digitRunFrom_split (by decide) hrun
        cases h
        refine ⟨by simp [hsplit], ?_⟩
        have hsign' : sign ≠ '\n' := by rintro rfl; simp at hsign
        simp [hmark'.symm, hsign'.symm, hds]
      · split at h
        · obtain ⟨⟨ds, r⟩, hrun, h⟩ := Option.bind_eq_some_iff.1 h
          obtain ⟨hsplit, hds⟩ := digitRunFrom_split (by decide) hrun
          cases h
          exact ⟨by simp [hsplit], by simp [hmark'.symm, hds]⟩
        · cases h
          simp
    · cases h
      simp
  · cases h
    simp

theorem scanFraction_split {hasPoint} (h : scanFraction cs = some (hasPoint, ds, r)) :
    cs = (if hasPoint then '.' :: ds else []) ++ r ∧
      '\n' ∉ (if hasPoint then '.' :: ds else []) := by
  unfold scanFraction at h
  split at h
  · split at h
    · obtain ⟨⟨ds', r'⟩, hrun, h⟩ := Option.map_eq_some_iff.1 h
      cases h
      obtain ⟨hsplit, hds⟩ := digitRunFrom_split (by decide) hrun
      exact ⟨by simp [hsplit], by simpa using hds⟩
    · cases h
      simp
  all_goals
    cases h
    simp

theorem scanFraction_point {hasPoint} (h : scanFraction ('.' :: more) = some (hasPoint, ds, r)) :
    hasPoint = true := by
  unfold scanFraction at h
  split at h
  · split at h
    · obtain ⟨_, _, h⟩ := Option.map_eq_some_iff.1 h
      exact (Prod.mk.inj h).1.symm
    · exact (Prod.mk.inj (Option.some.inj h)).1.symm
  · exact (Prod.mk.inj (Option.some.inj h)).1.symm
  · next hlong hshort =>
    cases more with
    | nil => exact absurd rfl hshort
    | cons c rest => exact absurd rfl (hlong c rest)

theorem scanDecimalTail_split {whole n} (hwhole : '\n' ∉ whole)
    (hstart : whole ≠ [] ∨ ∃ more, cs = '.' :: more) (h : scanDecimalTail whole cs = some n) :
    n.Splits (whole ++ cs) := by
  unfold scanDecimalTail at h
  obtain ⟨⟨hasPoint, fraction, afterFraction⟩, hfraction, h⟩ := Option.bind_eq_some_iff.1 h
  obtain ⟨hsplit, hpoint⟩ := scanFraction_split hfraction
  obtain ⟨⟨exponent, exponentText, afterExponent⟩, hexponent, h⟩ :=
    Option.bind_eq_some_iff.1 h
  obtain ⟨hsplit', hexp⟩ := scanExponent_split hexponent
  -- the text up to the exponent, and what may stand behind it
  have htext : whole ++ cs
      = whole ++ (if hasPoint then '.' :: fraction else []) ++ exponentText ++ afterExponent := by
    rw [hsplit, hsplit']
    simp
  have hline : '\n' ∉ whole ++ (if hasPoint then '.' :: fraction else []) ++ exponentText := by
    simp only [List.mem_append, not_or]
    exact ⟨⟨hwhole, hpoint⟩, hexp⟩
  have hne : whole ++ (if hasPoint then '.' :: fraction else []) ++ exponentText ≠ [] := by
    rcases hstart with hstart | ⟨more, rfl⟩
    · simp [hstart]
    · rw [scanFraction_point hfraction]
      simp
  rw [htext]
  simp only at h
  generalize whole ++ (if hasPoint then '.' :: fraction else []) ++ exponentText = text
    at h hline hne ⊢
  repeat' split at h
  all_goals cases h
  -- only an imaginary number takes a character behind the exponent
  · next c rest hj _ _ =>
    have hc : c ≠ '\n' := by rintro rfl; simp at hj
    exact ⟨by simp, by simp, by simp [hline, hc.symm], rfl⟩
  all_goals exact ⟨rfl, hne, hline, rfl⟩

theorem scanNumber_split {c n} (hc : isDigit c = true ∨ c = '.')
    (h : scanNumber (c :: more) = some n) : n.Splits (c :: more) := by
  have hdecimal : isDigit c = true →
      (digitRun isDigit (c :: more)).bind (fun x => scanDecimalTail x.1 x.2) = some n →
      n.Splits (c :: more) := by
    intro hc h
    obtain ⟨⟨whole, r⟩, hrun, h⟩ := Option.bind_eq_some_iff.1 h
    obtain ⟨hsplit, hwhole⟩ := digitRun_split (by decide) hrun
    rw [hsplit]
    exact scanDecimalTail_split hwhole (.inl (digitRun_ne_nil hc hrun)) h
  unfold scanNumber at h
  split at h
  · next mark rest heq =>
    cases heq
    have hbased : ∀ base digit, digit '\n' = false → mark ≠ '\n' →
        scanBased ['0', mark] base digit rest = some n → n.Splits ('0' :: mark :: rest) :=
      fun base digit hdigit hmark h =>
        scanBased_split hdigit (by simp [hmark.symm]) (by simp) h
    split at h
    · next hmark => exact hbased _ _ (by decide) (by rintro rfl; simp at hmark) h
    · split at h
      · next hmark => exact hbased _ _ (by decide) (by rintro rfl; simp at hmark) h
      · split at h
        · next hmark => exact hbased _ _ (by decide) (by rintro rfl; simp at hmark) h
        · exact hdecimal (by decide) h
  · next heq =>
    cases heq
    exact scanDecimalTail_split List.not_mem_nil (.inr ⟨_, rfl⟩) h
  · next hpoint =>
    rcases hc with hc | rfl
    · exact hdecimal hc h
    · exact absurd rfl (hpoint _)

/-! ## Names and operators -/

def TokenKind.isWritten : TokenKind → Bool
  | .name _ | .keyword _ | .op _ | .string _ => true
  | .number value => value.isNumber
  | _ => false

theorem isNameChar_lineEnd : isNameChar '\n' = false := by decide

theorem scanName_taken (h : scanName cs = some (kind, taken, rest)) :
    taken = cs.takeWhile isNameChar ∧
    rest = cs.dropWhile isNameChar ∧ kind.isWritten = true := by
  unfold scanName at h
  simp only at h
  split at h
  · cases h
    exact ⟨rfl, rfl, rfl⟩
  · split at h
    · cases h
      exact ⟨rfl, rfl, rfl⟩
    · cases h

theorem scanName_nameChars (h : scanName cs = some (kind, taken, rest)) :
    ∀ c ∈ taken, isNameChar c = true := by
  rw [(scanName_taken h).1]
  exact List.all_eq_true.1 List.all_takeWhile

theorem scanName_split (h : scanName cs = some (kind, taken, rest)) :
    cs = taken ++ rest ∧ '\n' ∉ taken := by
  constructor
  · rw [(scanName_taken h).1, (scanName_taken h).2.1, List.takeWhile_append_dropWhile]
  · intro hmem
    have hline := scanName_nameChars h '\n' hmem
    rw [isNameChar_lineEnd] at hline
    cases hline

theorem scanName_ne_nil {c} (hc : isNameChar c = true)
    (h : scanName (c :: more) = some (kind, taken, rest)) : taken ≠ [] := by
  rw [(scanName_taken h).1, List.takeWhile_cons_of_pos hc]
  simp

theorem operators_solid : ∀ op ∈ operators, op.toList ≠ [] ∧ '\n' ∉ op.toList := by decide

theorem scanOperator_mem {op} (h : scanOperator cs = some (op, rest)) :
    op ∈ operators ∧ cs = op.toList ++ rest := by
  obtain ⟨op', hmem, h⟩ := List.exists_of_findSome?_eq_some h
  obtain ⟨rest', hdrop, heq⟩ := Option.map_eq_some_iff.1 h
  cases heq
  exact ⟨hmem, dropPrefix?_split hdrop⟩

theorem scanOperator_split {op} (h : scanOperator cs = some (op, rest)) :
    cs = op.toList ++ rest ∧ Solid op.toList := by
  obtain ⟨hmem, hsplit⟩ := scanOperator_mem h
  obtain ⟨hne, hline⟩ := operators_solid op hmem
  exact ⟨hsplit, .of_notMem hne hline⟩

/-! ## Strings -/

def closingQuotes (quote : Char) (triple : Bool) : List Char :=
  if triple then [quote, quote, quote] else [quote]

/-- A body that starts with a character that escapes nothing. -/
theorem stringBody_cons {quote c triple} (hc : c ≠ '\\') (rest : List Char) :
    stringBody quote triple (c :: rest)
      = if c == quote then
          if triple then
            match rest with
            | a :: b :: after =>
              if a == quote && b == quote then some ([], after)
              else (stringBody quote triple rest).map fun (body, r) => (c :: body, r)
            | _ => none
          else some ([], rest)
        else if c == '\n' && !triple then none
        else (stringBody quote triple rest).map fun (b, r) => (c :: b, r) := by
  rw [stringBody.eq_def]
  split
  · next heq => cases heq
  · next heq => exact absurd (List.cons.inj heq).1 hc
  · next heq =>
    cases heq
    rw [beq_false_of_ne hc]
    rfl

/-- The body of a literal and the quotes behind it say where the literal ends, whatever follows. -/
theorem stringBody_closes {quote triple body} (hquote : quote ≠ '\\')
    (h : stringBody quote triple cs = some (body, rest)) :
    cs = body ++ closingQuotes quote triple ++ rest ∧
      ∀ after, stringBody quote triple (body ++ closingQuotes quote triple ++ after)
        = some (body, after) := by
  fun_induction stringBody quote triple cs generalizing body rest with
  | case1 | case5 | case7 | case8 => cases h
  | case2 c more ih =>
    obtain ⟨⟨b, r⟩, hbody, heq⟩ := Option.map_eq_some_iff.1 h
    cases heq
    obtain ⟨rfl, hclose⟩ := ih hbody
    refine ⟨by simp, fun after => ?_⟩
    simp only [List.cons_append, stringBody, hclose, Option.map_some]
  | case3 c hc htriple a b after hquotes _ =>
    cases h
    obtain ⟨rfl, rfl⟩ : a = quote ∧ b = quote := by simpa using hquotes
    obtain rfl := beq_iff_eq.1 hc
    refine ⟨by simp [closingQuotes, htriple], fun after => ?_⟩
    simp [closingQuotes, htriple, stringBody_cons hquote]
  | case4 c hc htriple a b after hquotes _ ih =>
    obtain ⟨⟨b', r⟩, hbody, heq⟩ := Option.map_eq_some_iff.1 h
    cases heq
    obtain ⟨hsplit, hclose⟩ := ih hbody
    obtain rfl := beq_iff_eq.1 hc
    refine ⟨by rw [hsplit]; simp, fun after => ?_⟩
    -- what stands behind the quote starts as before
    have hstart : ∃ more, b' ++ closingQuotes c triple ++ after = a :: b :: more := by
      rw [htriple] at hsplit ⊢
      simp only [closingQuotes, if_true] at hsplit ⊢
      match b' with
      | [] => simp_all
      | [x] => simp_all
      | x :: y :: more => simp_all
    obtain ⟨more, hmore⟩ := hstart
    have hrest := hclose after
    rw [hmore] at hrest
    rw [List.cons_append, List.cons_append, stringBody_cons hquote, if_pos hc, if_pos htriple,
      hmore]
    simp only [if_neg hquotes, hrest, Option.map_some]
  | case6 c more _ hc htriple =>
    cases h
    obtain rfl := beq_iff_eq.1 hc
    refine ⟨by simp [closingQuotes, htriple], fun after => ?_⟩
    simp [closingQuotes, htriple, stringBody_cons hquote]
  | case9 c more _ hne hline hslash ih =>
    obtain ⟨⟨b', r⟩, hbody, heq⟩ := Option.map_eq_some_iff.1 h
    cases heq
    obtain ⟨rfl, hclose⟩ := ih hbody
    refine ⟨by simp, fun after => ?_⟩
    rw [List.cons_append, List.cons_append, stringBody_cons (by simpa using hslash), if_neg hne,
      if_neg hline, hclose]
    rfl

def StringToken.text (t : StringToken) (quote : Char) : List Char :=
  t.letters ++ closingQuotes quote (t.quotes == 3) ++ t.body ++ closingQuotes quote (t.quotes == 3)

/-- The literal can be written with a quote character. -/
structure StringToken.Written (t : StringToken) (quote : Char) : Prop where
  quoted : quote = '\'' ∨ quote = '"'
  letters : ∀ c ∈ t.letters, c.isAlpha = true
  allowed : stringLetters.contains (String.ofList (t.letters.map Char.toLower)) = true
  quotes : t.quotes = 1 ∨ t.quotes = 3
  body : ∀ after, stringBody quote (t.quotes == 3)
    (t.body ++ closingQuotes quote (t.quotes == 3) ++ after) = some (t.body, after)

/-- Quotes without a body do not stand in front of a third one. -/
def StringToken.Closed (t : StringToken) (quote : Char) (rest : List Char) : Prop :=
  t.quotes = 1 → t.body = [] → rest.head? ≠ some quote

theorem scanString_written {t} (h : scanString cs = some (some (t, rest))) :
    ∃ quote, t.Written quote ∧ cs = t.text quote ++ rest ∧ t.Closed quote rest := by
  have hsplit : cs = cs.takeWhile Char.isAlpha ++ cs.dropWhile Char.isAlpha :=
    List.takeWhile_append_dropWhile.symm
  have hletters : ∀ c ∈ cs.takeWhile Char.isAlpha, c.isAlpha = true :=
    List.all_eq_true.1 List.all_takeWhile
  unfold scanString at h
  simp only at h
  generalize cs.takeWhile Char.isAlpha = letters at h hsplit hletters
  split at h
  · next q more hdrop =>
    rw [hdrop] at hsplit
    split at h
    · next hq =>
      obtain ⟨hquote, hallowed⟩ : (q = '\'' ∨ q = '"') ∧
          stringLetters.contains (String.ofList (letters.map Char.toLower)) = true := by
        simpa using hq
      have hslash : q ≠ '\\' := by rcases hquote with rfl | rfl <;> decide
      -- a literal in single quotes
      have hsingle : (stringBody q false more).map (fun x =>
            (({ letters, quotes := 1, body := x.1 } : StringToken), x.2)) = some (t, rest) →
          (∀ a b after, more = a :: b :: after → ¬(a = q ∧ b = q)) →
          ∃ quote, t.Written quote ∧ cs = t.text quote ++ rest ∧ t.Closed quote rest := by
        intro hscan hnot
        obtain ⟨⟨body, r⟩, hbody, heq⟩ := Option.map_eq_some_iff.1 hscan
        cases heq
        obtain ⟨rfl, hclose⟩ := stringBody_closes hslash hbody
        refine ⟨q, ⟨hquote, hletters, hallowed, .inl rfl, hclose⟩, ?_, ?_⟩
        · simp [hsplit, StringToken.text, closingQuotes]
        · rintro - rfl hhead
          obtain ⟨after, rfl⟩ := List.head?_eq_some_iff.1 hhead
          exact hnot q q after (by simp [closingQuotes]) ⟨rfl, rfl⟩
      split at h
      · next a b after =>
        split at h
        · next hthree =>
          obtain ⟨⟨body, r⟩, hbody, heq⟩ := Option.map_eq_some_iff.1 (Option.some.inj h)
          cases heq
          obtain ⟨rfl, hclose⟩ := stringBody_closes hslash hbody
          obtain ⟨rfl, rfl⟩ : a = q ∧ b = q := by simpa using hthree
          refine ⟨_, ⟨hquote, hletters, hallowed, .inr rfl, hclose⟩,
            ?_, by simp [StringToken.Closed]⟩
          simp [hsplit, StringToken.text, closingQuotes]
        · next hthree =>
          refine hsingle (Option.some.inj h) ?_
          intro a' b' after' hmore hboth
          simp only [List.cons.injEq] at hmore
          obtain ⟨rfl, rfl, rfl⟩ := hmore
          exact hthree (by simpa using hboth)
      · next hshort =>
          exact hsingle (Option.some.inj h) fun a b after heq _ => hshort a b after heq
    · cases h
  · cases h

theorem StringToken.Written.scan {t quote} (h : t.Written quote) (hrest : t.Closed quote rest) :
    scanString (t.text quote ++ rest) = some (some (t, rest)) := by
  have hslash : quote ≠ '\\' := by rcases h.quoted with rfl | rfl <;> decide
  have halpha : quote.isAlpha = false := by rcases h.quoted with rfl | rfl <;> decide
  have hquote : (quote == '\'' || quote == '"') = true := by simpa using h.quoted
  -- the letters are all that stands before the first quote
  have hscan : ∀ more, scanString (t.letters ++ quote :: more) =
      match more with
      | a :: b :: after =>
        if a == quote && b == quote then
          some ((stringBody quote true after).map fun (body, r) =>
            ({ letters := t.letters, quotes := 3, body }, r))
        else some ((stringBody quote false more).map fun (body, r) =>
            ({ letters := t.letters, quotes := 1, body }, r))
      | _ => some ((stringBody quote false more).map fun (body, r) =>
            ({ letters := t.letters, quotes := 1, body }, r)) := by
    intro more
    have htake : (t.letters ++ quote :: more).takeWhile Char.isAlpha = t.letters := by
      rw [List.takeWhile_append_of_pos h.letters]
      simp [halpha]
    have hdrop : (t.letters ++ quote :: more).dropWhile Char.isAlpha = quote :: more := by
      rw [List.dropWhile_append_of_pos h.letters]
      simp [halpha]
    unfold scanString
    simp only [htake, hdrop]
    exact if_pos (by rw [hquote, h.allowed, Bool.and_self])
  obtain ⟨letters, quotes, body⟩ := t
  have hbody := h.body rest
  rcases h.quotes with rfl | rfl
  · have htext : StringToken.text ⟨letters, 1, body⟩ quote ++ rest
        = letters ++ quote :: (body ++ quote :: rest) := by
      simp [StringToken.text, closingQuotes]
    replace hbody : stringBody quote false (body ++ quote :: rest) = some (body, rest) := by
      simpa [closingQuotes] using hbody
    rw [htext, hscan]
    split
    · next a b after hmore =>
      have hnot : ¬(a == quote && b == quote) = true := by
        rw [Bool.and_eq_true, beq_iff_eq, beq_iff_eq]
        rintro ⟨rfl, rfl⟩
        cases body with
        | nil =>
          obtain ⟨_, hrest'⟩ := List.cons.inj hmore
          exact hrest rfl rfl (by rw [hrest']; rfl)
        | cons c body =>
          obtain ⟨rfl, _⟩ := List.cons.inj hmore
          rw [List.cons_append, stringBody_cons hslash] at hbody
          simp at hbody
      rw [if_neg hnot, hbody]
      rfl
    · rw [hbody]
      rfl
  · have htext : StringToken.text ⟨letters, 3, body⟩ quote ++ rest
        = letters ++ quote :: quote :: quote :: (body ++ closingQuotes quote true ++ rest) := by
      simp [StringToken.text, closingQuotes]
    replace hbody : stringBody quote true (body ++ closingQuotes quote true ++ rest)
        = some (body, rest) := hbody
    rw [htext, hscan]
    simpa using hbody

theorem StringToken.text_ends (t : StringToken) (quote : Char) :
    ∃ init, t.text quote = init ++ [quote] := by
  obtain ⟨init, hinit⟩ : ∃ init, closingQuotes quote (t.quotes == 3) = init ++ [quote] := by
    unfold closingQuotes
    split
    · exact ⟨[quote, quote], rfl⟩
    · exact ⟨[], rfl⟩
  exact ⟨t.letters ++ (init ++ [quote]) ++ t.body ++ init, by simp [StringToken.text, hinit]⟩

/-- A literal starts with a letter or a quote and ends with a quote. -/
theorem scanString_split {literal} (h : scanString cs = some (some (literal, rest))) :
    ∃ taken, cs = taken ++ rest ∧ Solid taken := by
  obtain ⟨quote, hwritten, hcs, _⟩ := scanString_written h
  have hquote : quote ≠ '\n' := by rcases hwritten.quoted with rfl | rfl <;> decide
  refine ⟨literal.text quote, hcs, ?_, ?_⟩
  · cases hletters : literal.letters with
    | nil =>
      obtain ⟨more, hmore⟩ :
          ∃ more, closingQuotes quote (literal.quotes == 3) = quote :: more := by
        unfold closingQuotes
        split <;> exact ⟨_, rfl⟩
      exact ⟨quote, _, by simp [StringToken.text, hletters, hmore]; rfl, hquote⟩
    | cons c letters =>
      refine ⟨c, _, by simp [StringToken.text, hletters]; rfl, ?_⟩
      rintro rfl
      exact absurd (hwritten.letters '\n' (by simp [hletters])) (by decide)
  · obtain ⟨init, hinit⟩ := literal.text_ends quote
    exact ⟨init, quote, hinit, hquote⟩

/-! ## Single tokens -/

/-- A token that has been scanned: its kind, the characters it takes, what follows, and the
brackets that are open then. -/
structure Scanned where
  kind : TokenKind
  taken : List Char
  rest : List Char
  brackets : List Char

/-- The token at the front of a text that no string literal starts. -/
def scanWord (digitGroups : Bool) (brackets : List Char) : List Char → Option Scanned
  | [] => none
  | c :: more =>
    if isAsciiNameStart c || c.toNat ≥ 128 then
      (scanName (c :: more)).map fun (kind, taken, rest) => ⟨kind, taken, rest, brackets⟩
    else if isDigit c || (c == '.' && (more.head?.any isDigit)) then
      match scanNumber (c :: more) with
      | some n =>
        if n.text.contains '_' && !digitGroups then none
        else some ⟨.number n.value, n.text, n.rest, brackets⟩
      | none => none
    else do
      let (op, rest) ← scanOperator (c :: more)
      let brackets ← bracketsAfter op brackets
      some ⟨.op op, op.toList, rest, brackets⟩

def scanToken (digitGroups : Bool) (brackets cs : List Char) : Option Scanned :=
  match scanString cs with
  | some none => none
  | some (some (literal, rest)) =>
    some ⟨.string literal, cs.take (cs.length - rest.length), rest, brackets⟩
  | none => scanWord digitGroups brackets cs

theorem lexToken_eq (o : LexOptions) (s : LexState) (place : Cursor) :
    lexToken o s place = (scanToken o.digitGroups s.brackets place.rest).map fun t =>
      .more [tokenAt o t.kind place (place.past t.taken t.rest)]
        { s with cursor := place.past t.taken t.rest, brackets := t.brackets } := by
  unfold lexToken scanToken
  cases hstring : scanString place.rest with
  | some found => cases found <;> rfl
  | none =>
    cases hrest : place.rest with
    | nil => rfl
    | cons c more =>
      simp only [scanWord]
      split
      · rw [Option.map_map]
        rfl
      · split
        · cases scanNumber (c :: more) with
          | none => rfl
          | some n =>
            simp only
            split <;> rfl
        · cases scanOperator (c :: more) with
          | none => rfl
          | some found =>
            simp only [Option.bind_eq_bind, Option.bind_some]
            cases bracketsAfter found.1 s.brackets <;> rfl

theorem digitOrPoint {c} (h : (isDigit c || (c == '.' && (more.head?.any isDigit))) = true) :
    isDigit c = true ∨ c = '.' := by
  simp only [Bool.or_eq_true, Bool.and_eq_true, beq_iff_eq] at h
  exact h.imp_right And.left

/-- The characters of a token: those of a name, a number, an operator or a literal. -/
inductive Scanned.Shape (t : Scanned) : Prop
  | word (h : ∀ c ∈ t.taken, isNameChar c = true)
  | number (v : Constant) (h : t.kind = .number v)
  | operator (op : String) (hop : op ∈ operators) (h : t.taken = op.toList)
  | literal (l : StringToken) (quote : Char) (hkind : t.kind = .string l) (hl : l.Written quote)
      (h : t.taken = l.text quote)

/-- What is known of a token: it takes characters from the front, at least one, and these have the
shape of a token. -/
structure Scanned.Spec (cs : List Char) (t : Scanned) : Prop where
  split : cs = t.taken ++ t.rest ∧ Solid t.taken
  isWritten : t.kind.isWritten = true
  shape : t.Shape

theorem scanWord_spec {g t} (h : scanWord g bs cs = some t) : t.Spec cs := by
  unfold scanWord at h
  split at h
  · cases h
  · next c more =>
    split at h
    · next hc =>
      obtain ⟨⟨kind, taken, rest⟩, hname, rfl⟩ := Option.map_eq_some_iff.1 h
      obtain ⟨htaken, hline⟩ := scanName_split hname
      have hchar : isNameChar c = true := by
        simp only [Bool.or_eq_true] at hc
        rcases hc with hc | hc <;> simp_all [isNameChar]
      exact ⟨⟨htaken, .of_notMem (scanName_ne_nil hchar hname) hline⟩,
        (scanName_taken hname).2.2, .word (scanName_nameChars hname)⟩
    · split at h
      · next hc =>
        split at h
        · next n hnumber =>
          split at h
          · cases h
          · cases h
            have hsplits := scanNumber_split (digitOrPoint hc) hnumber
            exact ⟨⟨hsplits.covers, .of_notMem hsplits.nonempty hsplits.line⟩, hsplits.number,
              .number _ rfl⟩
        · cases h
      · obtain ⟨⟨op, rest⟩, hop, h⟩ := Option.bind_eq_some_iff.1 h
        obtain ⟨brackets, _, h⟩ := Option.bind_eq_some_iff.1 h
        cases h
        exact ⟨scanOperator_split hop, rfl, .operator op (scanOperator_mem hop).1 rfl⟩

theorem scanToken_spec {g t} (h : scanToken g bs cs = some t) : t.Spec cs := by
  unfold scanToken at h
  split at h
  · cases h
  · next literal rest hstring =>
    cases h
    obtain ⟨taken, rfl, hsolid⟩ := scanString_split hstring
    obtain ⟨quote, hwritten, htaken, _⟩ := scanString_written hstring
    obtain rfl := List.append_cancel_right htaken
    exact ⟨by simpa using hsolid, rfl, .literal literal quote rfl hwritten (by simp)⟩
  · exact scanWord_spec h

end TypeStub.Syntax
