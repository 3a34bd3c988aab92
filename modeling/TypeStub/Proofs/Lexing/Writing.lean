import TypeStub.Proofs.Lexing.Layout
import TypeStub.Proofs.Lexing.Literals
/-!
# Texts that are written token by token

What the lexer makes of a text that is put together from the texts of tokens. `Goes` says what a
stretch of text does wherever it stands: which brackets it opens and closes, what may follow it, and
what is known of its tokens. Stretches are put together with `Goes.seq`; the tokens of a whole text
are those of its stretches (`tokenize_of_goes`).

Only the bound on open brackets can stop the lexer on such a text. So each stretch goes through if
the lexer is known to reach the end, or if the text has no more opening brackets than there is room
for.
-/

namespace TypeStub.Syntax

open TypeStub.Text

/-! ## Runs of the lexer -/

/-- Within a line the lexer comes from one state to another and gives the tokens `ts` on the way. -/
inductive LexRun (o : LexOptions) : LexState → List Token → LexState → Prop
  | same {s s'} : lexStep o s = lexStep o s' → LexRun o s [] s'
  | token {s s' t} :
      lexStep o s = some (.more [t] s') → LexRun o s [t] s'
  | trans {s s' s'' ts us} :
      LexRun o s ts s' → LexRun o s' us s'' → LexRun o s (ts ++ us) s''

namespace LexRun

variable {o : LexOptions} {s s' : LexState} {ts : List Token}

/-- A lexer that reaches the end goes along the run. -/
theorem rest (h : LexRun o s ts s') : ∀ {fuel : Nat} {tokens : List Token},
    lexFrom o fuel s = some tokens →
      ∃ fuel' more, lexFrom o fuel' s' = some more ∧ tokens = ts ++ more := by
  induction h with
  | same hstep =>
    intro fuel tokens h
    exact ⟨fuel, tokens, lexFrom_congr hstep fuel ▸ h, rfl⟩
  | token hstep =>
    intro fuel tokens h
    exact lexFrom_more h hstep
  | trans _ _ ih ih' =>
    intro fuel tokens h
    obtain ⟨fuel', more, hmore, rfl⟩ := ih h
    obtain ⟨fuel'', last, hlast, rfl⟩ := ih' hmore
    exact ⟨fuel'', last, hlast, (List.append_assoc ..).symm⟩

theorem yields (h : LexRun o s ts s') : ∀ {n : Nat} {ks : List TokenKind}, Yields o s' n ks →
    Yields o s (n + ts.length) (ts.map (·.kind) ++ ks) := by
  induction h with
  | same hstep => exact fun h => h.congr hstep
  | token hstep => exact fun h => h.step hstep
  | trans _ _ ih ih' =>
    intro n ks h
    have hfront := ih (ih' h)
    rw [List.map_append, List.append_assoc, List.length_append, Nat.add_comm (List.length _),
      ← Nat.add_assoc]
    exact hfront

end LexRun

/-! ## Stretches of text -/

def isOpening (c : Char) : Bool :=
  c == '(' || c == '[' || c == '\x7b'

def openings (text : List Char) : Nat :=
  text.countP isOpening

theorem openings_append (a b : List Char) : openings (a ++ b) = openings a + openings b :=
  List.countP_append ..

/-- The bound on open brackets does not stop the lexer in a text: the lexer reaches the end, or
there is room for all brackets of the text. -/
def Roomy (o : LexOptions) (s : LexState) (text : List Char) : Prop :=
  (∃ fuel tokens, lexFrom o fuel s = some tokens) ∨
    s.brackets.length + openings text ≤ maxBrackets

def TokenKind.isSteady : TokenKind → Bool
  | .name _ | .number _ | .op _ => true
  | .string literal => (TokenKind.string literal).isPlain
  | .keyword word => (TokenKind.keyword word).isPlain
  | _ => false

/-- Wherever `text` stands behind the open brackets `before`, in front of a rest with `Ends`, the
lexer takes it apart into tokens with `Is`, and the brackets `after` are open behind it. -/
structure Goes (before text after : List Char) (Ends : List Char → Prop)
    (Is : List Token → Prop) : Prop where
  clean : Clean text
  depth : after.length ≤ before.length + openings text
  run : ∀ {o : LexOptions} {s : LexState} {rest : List Char},
    s.Stands false before (text ++ rest) → Ends rest → Roomy o s text →
      ∃ ts next, LexRun o s ts next ∧ next.Stands false after rest ∧
        ts.length ≤ text.length ∧ (∀ t ∈ ts, t.kind.isSteady = true) ∧ Is ts

/-- One stretch of tokens behind another. -/
def InTurn (P Q : List Token → Prop) (ts : List Token) : Prop :=
  ∃ us vs, ts = us ++ vs ∧ P us ∧ Q vs

/-- A single token of the given kind. -/
def IsToken (kind : TokenKind) (ts : List Token) : Prop :=
  ∃ t, ts = [t] ∧ t.kind = kind

namespace Goes

variable {before text after : List Char} {Ends : List Char → Prop} {Is : List Token → Prop}

variable {Ends' : List Char → Prop} {Is' : List Token → Prop}

theorem mono (h : Goes before text after Ends Is) (hends : ∀ rest, Ends' rest → Ends rest)
    (his : ∀ ts, Is ts → Is' ts) : Goes before text after Ends' Is' where
  clean := h.clean
  depth := h.depth
  run hs hrest hroom := by
    obtain ⟨ts, next, hrun, hnext, hlength, hsteady, hts⟩ := h.run hs (hends _ hrest) hroom
    exact ⟨ts, next, hrun, hnext, hlength, hsteady, his ts hts⟩

theorem imp (h : Goes before text after Ends Is) (his : ∀ ts, Is ts → Is' ts) :
    Goes before text after Ends Is' :=
  h.mono (fun _ => id) his

theorem narrow (h : Goes before text after Ends Is) (hends : ∀ rest, Ends' rest → Ends rest) :
    Goes before text after Ends' Is :=
  h.mono hends fun _ => id

theorem seq {last text'} (h : Goes before text after Ends Is) (h' : Goes after text' last Ends' Is')
    (hends : ∀ rest, Ends' rest → Ends (text' ++ rest)) :
    Goes before (text ++ text') last Ends' (InTurn Is Is') where
  clean := h.clean.append h'.clean
  depth := by
    have hfirst := h.depth
    have hsecond := h'.depth
    rw [openings_append]
    omega
  run {o s rest} hs hrest hroom := by
    rw [List.append_assoc] at hs
    have hfront : Roomy o s text := hroom.imp_right fun hroom => by
      rw [openings_append] at hroom
      omega
    obtain ⟨ts, mid, hrun, hmid, hlength, hsteady, hts⟩ := h.run hs (hends _ hrest) hfront
    have hback : Roomy o mid text' := by
      rcases hroom with ⟨fuel, tokens, htokens⟩ | hroom
      · obtain ⟨fuel', more, hmore, -⟩ := hrun.rest htokens
        exact .inl ⟨fuel', more, hmore⟩
      · have hdepth := h.depth
        rw [openings_append, hs.brackets] at hroom
        rw [Roomy, hmid.brackets]
        exact .inr (by omega)
    obtain ⟨us, next, hrun', hnext, hlength', hsteady', hus⟩ := h'.run hmid hrest hback
    refine ⟨ts ++ us, next, hrun.trans hrun', hnext, ?_, ?_, ts, us, rfl, hts, hus⟩
    · simp only [List.length_append]
      omega
    · exact List.forall_mem_append.2 ⟨hsteady, hsteady'⟩

theorem blank : Goes before [' '] before (fun _ => True) (· = []) where
  clean := by simp [Clean]
  depth := Nat.le_add_right ..
  run {o s rest} hs _ _ :=
    ⟨[], s.past [' '] rest, .same (lexStep_blank hs (by simp) rfl), hs.past, Nat.zero_le _,
      by simp, rfl⟩

theorem empty : Goes before [] before (fun _ => True) (· = []) where
  clean := by simp [Clean]
  depth := Nat.le_add_right ..
  run {o s rest} hs _ _ := ⟨[], s, .same rfl, hs, Nat.zero_le _, by simp, rfl⟩

theorem token {kind} (hclean : Clean text) (hhead : ∃ c r, text = c :: r ∧ isGap c = false)
    (hdepth : after.length ≤ before.length + openings text) (hkind : kind.isSteady = true)
    (hscan : ∀ g rest, Ends rest →
      scanToken g before (text ++ rest) = some ⟨kind, text, rest, after⟩ ∨
        scanToken g before (text ++ rest) = none ∧ maxBrackets < before.length + openings text) :
    Goes before text after Ends (IsToken kind) where
  clean := hclean
  depth := hdepth
  run {o s rest} hs hrest hroom := by
    obtain ⟨c, r, rfl, hc⟩ := hhead
    have hstep := lexStep_token (o := o) hs hc
    rw [lexToken_eq, hs.text, hs.brackets] at hstep
    rcases hscan o.digitGroups rest hrest with htoken | ⟨hnone, hfull⟩
    · rw [htoken, Option.map_some] at hstep
      refine ⟨_, _, .token hstep, ⟨hs.line, rfl, rfl⟩, ?_, List.forall_mem_singleton.2 hkind,
        _, rfl, rfl⟩
      simp
    · -- neither kind of room is there
      rw [hnone, Option.map_none] at hstep
      rcases hroom with ⟨fuel, tokens, htokens⟩ | hroom
      · exact absurd hstep (lexStep_ne_none htokens)
      · rw [hs.brackets] at hroom
        omega

end Goes

/-! ## Words -/

/-- No word or literal goes on with what follows. -/
def EndsWord (rest : List Char) : Prop :=
  ∀ c ∈ rest.head?, isNameChar c = false ∧ c ≠ '\'' ∧ c ≠ '"'

variable {c : Char} {w rest bs : List Char} {op : String}

theorem isNameChar_of_isAlpha (h : c.isAlpha = true) : isNameChar c = true := by
  have hletter : ('A'.val ≤ c.val ∧ c.val ≤ 'Z'.val) ∨
      ('a'.val ≤ c.val ∧ c.val ≤ 'z'.val) := by
    rcases (Bool.or_eq_true _ _).mp h with h | h
    · exact .inl (of_decide_eq_true h)
    · exact .inr (((Bool.and_eq_true _ _).mp h).imp of_decide_eq_true of_decide_eq_true)
  simp only [isNameChar, isAsciiNameStart, Char.le_def, Bool.or_eq_true, Bool.and_eq_true,
    decide_eq_true_eq]
  rcases hletter with h | h
  · exact .inl (.inl (.inl (.inr h)))
  · exact .inl (.inl (.inl (.inl h)))

theorem scanString_word (hw : ∀ c ∈ w, isNameChar c = true) (hrest : EndsWord rest) :
    scanString (w ++ rest) = none := by
  have hfirst : ∀ q more, (w ++ rest).dropWhile Char.isAlpha = q :: more → q ≠ '\'' ∧
      q ≠ '"' := by
    induction w with
    | nil =>
      cases rest with
      | nil => simp
      | cons c r =>
        obtain ⟨hname, hquotes⟩ := hrest c rfl
        intro q more hdrop
        rw [List.nil_append, List.dropWhile_cons_of_neg] at hdrop
        · exact (List.cons.inj hdrop).1 ▸ hquotes
        · intro halpha
          rw [isNameChar_of_isAlpha halpha] at hname
          cases hname
    | cons c w ih =>
      obtain ⟨hc, hw⟩ := List.forall_mem_cons.1 hw
      intro q more hdrop
      rw [List.cons_append] at hdrop
      by_cases halpha : c.isAlpha = true
      · rw [List.dropWhile_cons_of_pos halpha] at hdrop
        exact ih hw q more hdrop
      · rw [List.dropWhile_cons_of_neg halpha] at hdrop
        obtain ⟨rfl, -⟩ := List.cons.inj hdrop
        constructor <;> (rintro rfl; revert hc; decide)
  unfold scanString
  simp only
  split
  · next q more hdrop =>
    obtain ⟨hsingle, hdouble⟩ := hfirst q more hdrop
    simp [hsingle, hdouble]
  · rfl

theorem scanName_word (hw : ∀ c ∈ w, isNameChar c = true) (hrest : EndsWord rest) :
    (w ++ rest).takeWhile isNameChar = w ∧ (w ++ rest).dropWhile isNameChar = rest := by
  have hstop : rest.takeWhile isNameChar = [] ∧ rest.dropWhile isNameChar = rest := by
    cases rest with
    | nil => simp
    | cons c r => simp [(hrest c rfl).1]
  rw [List.takeWhile_append_of_pos hw, List.dropWhile_append_of_pos hw, hstop.1, hstop.2]
  simp

theorem scanToken_word {g} (hfirst : w.head? = some c)
    (hstart : (isAsciiNameStart c || decide (c.toNat ≥ 128)) = true)
    (hw : ∀ c ∈ w, isNameChar c = true) (hrest : EndsWord rest) :
    scanToken g bs (w ++ rest) = (if keywords.contains (String.ofList w) then
        some (.keyword (String.ofList w))
      else if isIdentifier w then some (.name (String.ofList (normalForm w))) else none).map
        fun kind => ⟨kind, w, rest, bs⟩ := by
  obtain ⟨more, rfl⟩ := List.head?_eq_some_iff.1 hfirst
  obtain ⟨htake, hdrop⟩ := scanName_word hw hrest
  rw [scanToken, scanString_word hw hrest]
  simp only [List.cons_append] at htake hdrop ⊢
  rw [scanWord, if_pos hstart]
  simp only [scanName, htake, hdrop]
  split
  · rfl
  · split <;> rfl

def isName (id : String) : Bool :=
  isIdentifier id.toList && !keywords.contains id && normalForm id.toList == id.toList

theorem isNameChar_of_isIdentifierStart (h : isIdentifierStart c = true) :
    (isAsciiNameStart c || decide (c.toNat ≥ 128)) = true ∧ isNameChar c = true := by
  unfold isIdentifierStart at h
  split at h
  · simp [isNameChar, h]
  · next hwide => simp [isNameChar, Nat.le_of_not_lt hwide]

theorem isNameChar_of_isIdentifierPart (h : isIdentifierPart c = true) : isNameChar c = true := by
  rcases Bool.or_eq_true_iff.1 h with h | h
  · exact (isNameChar_of_isIdentifierStart h).2
  · split at h
    · simp [isNameChar, h]
    · next hwide => simp [isNameChar, Nat.le_of_not_lt hwide]

theorem clean_word (hw : ∀ c ∈ w, isNameChar c = true) : Clean w := by
  intro c hc
  have hname := hw c hc
  constructor <;> (rintro rfl; revert hname; decide)

theorem isGap_of_isNameChar (h : isNameChar c = true) : isGap c = false := by
  cases hgap : isGap c with
  | false => rfl
  | true =>
    have hchar : c = ' ' ∨ c = '\t' ∨ c = '\x0c' ∨ c = '\n' ∨ c = '#' ∨ c = '\\' := by
      simpa [isGap, isLineBlank, or_assoc] using hgap
    rcases hchar with rfl | rfl | rfl | rfl | rfl | rfl <;> exact absurd h (by decide)

theorem isName_chars {id} (h : isName id = true) :
    ∃ c, id.toList.head? = some c ∧ (isAsciiNameStart c || decide (c.toNat ≥ 128)) = true ∧
      ∀ c ∈ id.toList, isNameChar c = true := by
  simp only [isName, Bool.and_eq_true] at h
  cases hchars : id.toList with
  | nil => simp [hchars, isIdentifier] at h
  | cons c rest =>
    simp only [hchars, isIdentifier, Bool.and_eq_true, List.all_eq_true] at h
    obtain ⟨hstart, hname⟩ := isNameChar_of_isIdentifierStart h.1.1.1
    exact ⟨c, rfl, hstart, List.forall_mem_cons.2
      ⟨hname, fun c hc => isNameChar_of_isIdentifierPart (h.1.1.2 c hc)⟩⟩

theorem scanToken_name {id g} (h : isName id = true) (hrest : EndsWord rest) :
    scanToken g bs (id.toList ++ rest) = some ⟨.name id, id.toList, rest, bs⟩ := by
  obtain ⟨c, hc, hstart, hchars⟩ := isName_chars h
  simp only [isName, Bool.and_eq_true, Bool.not_eq_true', beq_iff_eq] at h
  rw [scanToken_word hc hstart hchars hrest, String.ofList_toList, h.1.2, h.1.1, h.2,
    String.ofList_toList]
  rfl

theorem goes_name {id} (h : isName id = true) (bs : List Char) :
    Goes bs id.toList bs EndsWord (IsToken (.name id)) := by
  obtain ⟨c, hc, -, hchars⟩ := isName_chars h
  refine .token (clean_word hchars) ?_ (Nat.le_add_right ..) rfl fun g rest hrest =>
    .inl (scanToken_name h hrest)
  obtain ⟨more, hmore⟩ := List.head?_eq_some_iff.1 hc
  exact ⟨c, more, hmore, isGap_of_isNameChar (hchars c (by simp [hmore]))⟩

theorem keywords_chars : ∀ word ∈ keywords, word.toList.all isNameChar = true ∧
    word.toList.head?.any isAsciiNameStart = true := by
  decide

theorem keyword_head {word} (h : word ∈ keywords) :
    ∃ c r, word.toList = c :: r ∧ isGap c = false := by
  obtain ⟨hall, hfirst⟩ := keywords_chars word h
  obtain ⟨c, hc, -⟩ := (Option.any_eq_true _ _).1 hfirst
  obtain ⟨more, hmore⟩ := List.head?_eq_some_iff.1 hc
  exact ⟨c, more, hmore, isGap_of_isNameChar (List.all_eq_true.1 hall c (by simp [hmore]))⟩

theorem scanToken_keyword {word g} (h : word ∈ keywords) (hrest : EndsWord rest) :
    scanToken g bs (word.toList ++ rest) = some ⟨.keyword word, word.toList, rest, bs⟩ := by
  obtain ⟨hall, hfirst⟩ := keywords_chars word h
  obtain ⟨c, hc, hstart⟩ := (Option.any_eq_true _ _).1 hfirst
  rw [scanToken_word hc (by simp [hstart]) (List.all_eq_true.1 hall) hrest, String.ofList_toList,
    if_pos (List.contains_iff_mem.2 h)]
  rfl

theorem goes_keyword {word} (h : word ∈ keywords)
    (hsteady : (TokenKind.keyword word).isSteady = true) (bs : List Char) :
    Goes bs word.toList bs EndsWord (IsToken (.keyword word)) :=
  .token (clean_word (List.all_eq_true.1 (keywords_chars word h).1)) (keyword_head h)
    (Nat.le_add_right ..) hsteady fun _ _ hrest => .inl (scanToken_keyword h hrest)

/-! ## Operators -/

/-- The characters that make a longer operator of an operator. -/
def extensions (op : String) : List Char :=
  operators.filterMap fun op' => (dropPrefix? op.toList op'.toList).bind List.head?

/-- No operator goes on with what follows. -/
def EndsOperator (op : String) (rest : List Char) : Prop :=
  ∀ c ∈ rest.head?, c ∉ extensions op ∧ (op = "." → isDigit c = false)

theorem operators_pairwise :
    operators.Pairwise fun a b => dropPrefix? a.toList b.toList = none := by
  decide +kernel

theorem scanOperator_operator (hop : op ∈ operators) (hrest : EndsOperator op rest) :
    scanOperator (op.toList ++ rest) = some (op, rest) := by
  obtain ⟨front, back, hsplit⟩ := List.append_of_mem hop
  have hpairs := operators_pairwise
  rw [hsplit, List.pairwise_append] at hpairs
  refine List.findSome?_eq_some_iff.2 ⟨front, op, back, hsplit, ?_, fun other hother => ?_⟩
  · rw [dropPrefix?_self]
    rfl
  · rw [Option.map_eq_none_iff]
    cases hdrop : dropPrefix? other.toList (op.toList ++ rest) with
    | none => rfl
    | some r =>
      -- the other operator is a part of this one, or goes on with what follows
      have hnone := hpairs.2.2 other hother op (by simp)
      rcases List.append_eq_append_iff.1 (dropPrefix?_split hdrop) with ⟨w, hw,
        hr⟩ | ⟨w, hw, hr⟩
      · cases w with
        | nil =>
          have hself := dropPrefix?_self op.toList []
          rw [List.append_nil] at hw hself
          rw [hw, hself] at hnone
          cases hnone
        | cons c w =>
          subst hr
          have hext : c ∈ extensions op := by
            refine List.mem_filterMap.2 ⟨other, hsplit ▸ List.mem_append_left _ hother, ?_⟩
            rw [hw, dropPrefix?_self]
            rfl
          exact absurd hext (hrest c rfl).1
      · rw [hw, dropPrefix?_self] at hnone
        cases hnone

theorem operators_first : ∀ op ∈ operators, op.toList.head?.any (fun c =>
    !c.isAlpha && c != '\'' && c != '"' && !isAsciiNameStart c && decide (c.toNat < 128) &&
      !isDigit c && !isGap c && (c != '.' || op == "." || op == "...")) = true := by
  decide +kernel

theorem operators_clean : ∀ op ∈ operators, op.toList.all (fun c =>
    c != '\r' && c != '\x00') = true := by
  decide

theorem clean_operator (hop : op ∈ operators) : Clean op.toList := by
  intro c hc
  simpa using List.all_eq_true.1 (operators_clean op hop) c hc

theorem scanToken_operator (hop : op ∈ operators) {g} (hrest : EndsOperator op rest) :
    scanToken g bs (op.toList ++ rest)
      = (bracketsAfter op bs).map fun bs' => ⟨.op op, op.toList, rest, bs'⟩ := by
  obtain ⟨c, hc, hfirst⟩ := (Option.any_eq_true _ _).1 (operators_first op hop)
  obtain ⟨more, hmore⟩ := List.head?_eq_some_iff.1 hc
  simp only [Bool.and_eq_true, Bool.or_eq_true, Bool.not_eq_true', bne_iff_ne, beq_iff_eq,
    decide_eq_true_eq] at hfirst
  obtain ⟨⟨⟨⟨⟨⟨⟨halpha, hsingle⟩, hdouble⟩, hstart⟩, hwide⟩, hdigit⟩, -⟩,
    hpoint⟩ := hfirst
  have hstring : scanString (op.toList ++ rest) = none := by
    simp [scanString, hmore, halpha, hsingle, hdouble]
  have hnumber : (c == '.' && ((more ++ rest).head?.any isDigit)) = false := by
    rcases hpoint with (hne | rfl) | rfl
    · simp [hne]
    · obtain ⟨-, rfl⟩ := List.cons.inj hmore
      cases rest with
      | nil => simp
      | cons d rest => simp [(hrest d rfl).2 rfl]
    · obtain ⟨-, rfl⟩ := List.cons.inj hmore
      exact Bool.and_eq_false_imp.2 fun _ => rfl
  have hscan := scanOperator_operator hop hrest
  rw [scanToken, hstring]
  simp only [hmore, List.cons_append] at hscan ⊢
  rw [scanWord, hstart, hdigit, hnumber, if_neg (by simpa using Nat.not_le.2 hwide),
    if_neg (by simp)]
  simp only [hscan, Option.bind_eq_bind, Option.bind_some]
  cases bracketsAfter op bs <;> simp [hmore]

theorem goes_bracketsAfter (hop : op ∈ operators) {bs'}
    (hdepth : bs'.length ≤ bs.length + openings op.toList)
    (hbrackets : bracketsAfter op bs = some bs' ∨ bracketsAfter op bs = none ∧ maxBrackets <
      bs.length + openings op.toList) :
    Goes bs op.toList bs' (EndsOperator op) (IsToken (.op op)) := by
  refine .token (clean_operator hop) ?_ hdepth rfl fun g rest hrest => ?_
  · obtain ⟨c, hc, hfirst⟩ := (Option.any_eq_true _ _).1 (operators_first op hop)
    obtain ⟨more, hmore⟩ := List.head?_eq_some_iff.1 hc
    simp only [Bool.and_eq_true, Bool.not_eq_true'] at hfirst
    exact ⟨c, more, hmore, hfirst.1.2⟩
  · rw [scanToken_operator hop hrest]
    rcases hbrackets with h | ⟨h, hfull⟩
    · exact .inl (by rw [h]; rfl)
    · exact .inr ⟨by rw [h]; rfl, hfull⟩

def isPlainOperator (op : String) : Bool :=
  operators.contains op && op.toList.all fun c => !isOpening c && (openerOf c).isNone

theorem goes_op (op : String) (h : isPlainOperator op = true) (bs : List Char) :
    Goes bs op.toList bs (EndsOperator op) (IsToken (.op op)) := by
  simp only [isPlainOperator, Bool.and_eq_true, List.contains_iff_mem, List.all_eq_true,
    Bool.not_eq_true', Option.isNone_iff_eq_none] at h
  obtain ⟨hop, hchars⟩ := h
  refine goes_bracketsAfter hop (Nat.le_add_right ..) (.inl ?_)
  unfold bracketsAfter
  split
  · next c hc =>
    obtain ⟨hopening, hcloses⟩ := hchars c (by simp [hc])
    rw [isOpening] at hopening
    rw [hopening, if_neg Bool.false_ne_true, hcloses]
  · rfl

/-- An opening and a closing bracket that belong together. -/
def IsPair (opening closing : String) : Prop :=
  (opening, closing) ∈ [("(", ")"), ("[", "]"), ("\x7b", "\x7d")]

theorem isPair_round : IsPair "(" ")" := by
  simp [IsPair]

theorem isPair_square : IsPair "[" "]" := by
  simp [IsPair]

theorem isPair_curly : IsPair "\x7b" "\x7d" := by
  simp [IsPair]

theorem IsPair.cases {opening closing} (h : IsPair opening closing) :
    opening = "(" ∧ closing = ")" ∨ opening = "[" ∧ closing = "]" ∨
      opening = "\x7b" ∧ closing = "\x7d" := by
  simpa [IsPair] using h

/-- A stretch of tokens in brackets. -/
def InBrackets (opening closing : String) (P : List Token → Prop) (ts : List Token) : Prop :=
  ∃ o us c, ts = o :: (us ++ [c]) ∧ o.kind = .op opening ∧ P us ∧ c.kind = .op closing

theorem endsOperator_of_extensions (h : extensions op = []) (hop : op ≠ ".") (rest : List Char) :
    EndsOperator op rest := by
  intro c _
  rw [h]
  exact ⟨List.not_mem_nil, fun heq => absurd heq hop⟩

/-- A text in brackets. Brackets end whatever stands in them, and stand before anything. -/
theorem Goes.inBrackets {opening closing} (hpair : IsPair opening closing) {text}
    {Ends : List Char → Prop} {P : List Token → Prop}
    (h : Goes (opening.toList ++ bs) text (opening.toList ++ bs) Ends P)
    (hends : ∀ rest, Ends (closing.toList ++ rest)) :
    Goes bs (opening.toList ++ text ++ closing.toList) bs (fun _ => True)
      (InBrackets opening closing P) := by
  have hopen : Goes bs opening.toList (opening.toList ++ bs) (fun _ => True)
      (IsToken (.op opening)) := by
    rcases hpair.cases with ⟨rfl, rfl⟩ | ⟨rfl, rfl⟩ | ⟨rfl, rfl⟩
    all_goals
      refine (goes_bracketsAfter (by decide) (by simp [openings, isOpening]) ?_).narrow
        fun rest _ => endsOperator_of_extensions (by decide) (by decide) rest
      by_cases hfull : bs.length ≥ maxBrackets
      · exact .inr ⟨if_pos hfull, Nat.lt_succ_of_le hfull⟩
      · exact .inl (if_neg hfull)
  have hclose : Goes (opening.toList ++ bs) closing.toList bs (fun _ => True)
      (IsToken (.op closing)) := by
    rcases hpair.cases with ⟨rfl, rfl⟩ | ⟨rfl, rfl⟩ | ⟨rfl, rfl⟩
    all_goals
      exact (goes_bracketsAfter (by decide) (by simp +arith) (.inl rfl)).narrow
        fun rest _ => endsOperator_of_extensions (by decide) (by decide) rest
  refine ((hopen.seq h fun _ _ => trivial).seq hclose fun rest _ => hends rest).imp ?_
  rintro _ ⟨_, _, rfl, ⟨_, us, rfl, ⟨o, rfl, ho⟩, hus⟩, c, rfl, hc⟩
  exact ⟨o, us, c, by simp, ho, hus, hc⟩

/-! ## Literals -/

/-- What may stand behind an expression: nothing that goes on with its last token. A point may
follow only what does not end with a number. -/
def EndsExpr (point : Bool) (rest : List Char) : Prop :=
  ∀ c ∈ rest.head?,
    isNameChar c = false ∧ c ≠ '\'' ∧ c ≠ '"' ∧ c ≠ '=' ∧ (c = '.' → point = true)

theorem EndsExpr.word {point} (h : EndsExpr point rest) : EndsWord rest := by
  intro c hc
  obtain ⟨hname, hsingle, hdouble, -⟩ := h c hc
  exact ⟨hname, hsingle, hdouble⟩

theorem EndsExpr.number (h : EndsExpr false rest) : EndsNumber rest := by
  intro c hc
  obtain ⟨hname, -, -, -, hpoint⟩ := h c hc
  exact ⟨hname, fun heq => Bool.false_ne_true (hpoint heq)⟩

theorem EndsExpr.mono {point} (h : EndsExpr false rest) : EndsExpr point rest := by
  intro c hc
  obtain ⟨hname, hsingle, hdouble, hequal, hpoint⟩ := h c hc
  exact ⟨hname, hsingle, hdouble, hequal, fun heq => absurd (hpoint heq) Bool.false_ne_true⟩

theorem isNameChar_of_isDigit (h : isDigit c = true) : isNameChar c = true := by
  simp [isNameChar, h]

theorem not_nameStart_of_isDigit (h : isDigit c = true) :
    (isAsciiNameStart c || decide (c.toNat ≥ 128)) = false := by
  have hline : c ≠ '_' := by rintro rfl; revert h; decide
  simp only [isDigit, Bool.and_eq_true, decide_eq_true_eq, Char.le_def, UInt32.le_iff_toNat_le] at h
  simp only [isAsciiNameStart, Bool.or_eq_false_iff, Bool.and_eq_false_iff, decide_eq_false_iff_not,
    Char.le_def, UInt32.le_iff_toNat_le, beq_eq_false_iff_ne, Char.toNat]
  have hlow : '0'.val.toNat = 48 := rfl
  have hhigh : '9'.val.toNat = 57 := rfl
  have ha : 'a'.val.toNat = 97 := rfl
  have hA : 'A'.val.toNat = 65 := rfl
  exact ⟨⟨⟨by omega, by omega⟩, hline⟩, by omega⟩

theorem goes_int {n} (h : n < Nat.pow 10 maxIntDigits) (bs : List Char) :
    Goes bs (decimal n).toList bs (EndsExpr false) (IsToken (.number (.int n))) := by
  have hdigits : ∀ c ∈ (decimal n).toList, isDigit c = true := fun c => isDigit_of_mem_decimal
  have hchars : ∀ c ∈ (decimal n).toList, isNameChar c = true :=
    fun c hc => isNameChar_of_isDigit (hdigits c hc)
  obtain ⟨c, more, hmore⟩ : ∃ c more, (decimal n).toList = c :: more :=
    List.exists_cons_of_ne_nil (by simp [decimal, Nat.toDigits_ne_nil])
  have hc : isDigit c = true := hdigits c (by simp [hmore])
  refine .token (clean_word hchars) ⟨c, more, hmore, ?_⟩ (Nat.le_add_right ..) rfl
    fun g rest hrest => .inl ?_
  · exact isGap_of_isNameChar (isNameChar_of_isDigit hc)
  · have hnumber := scanNumber_decimal h hrest.number
    have hplain : (decimal n).toList.contains '_' = false := by
      simpa using fun hmem => absurd (hdigits '_' hmem) (by decide)
    have hstart := not_nameStart_of_isDigit hc
    rw [scanToken, scanString_word hchars hrest.word]
    simp only [hmore, List.cons_append] at hnumber hplain ⊢
    rw [scanWord, hstart, if_neg Bool.false_ne_true, hc, Bool.true_or, if_pos rfl, hnumber]
    simp only [hplain, Bool.false_and, Bool.false_eq_true, if_false]

theorem toList_quoted (ps : List Nat) (marked : Bool) :
    (if marked then "u" ++ quoted ps else quoted ps).toList
      = (quotedToken (if marked then ['u'] else []) ps).text (plainQuote ps) := by
  cases marked <;> simp [quoted, quotedToken, StringToken.text, closingQuotes]

theorem scanToken_quoted {ps} (h : ∀ n ∈ ps, n < 0x110000) (marked : Bool) {g}
    (hrest : EndsWord rest) :
    scanToken g bs ((if marked then "u" ++ quoted ps else quoted ps).toList ++ rest)
      = some ⟨.string (quotedToken (if marked then ['u'] else []) ps),
        (if marked then "u" ++ quoted ps else quoted ps).toList, rest, bs⟩ := by
  have hclosed : (quotedToken (if marked then ['u'] else []) ps).Closed (plainQuote ps) rest := by
    intro _ _ hhead
    obtain ⟨-, hsingle, hdouble⟩ := hrest _ hhead
    rcases isQuote_plainQuote ps with hq | hq
    · exact hsingle hq
    · exact hdouble hq
  rw [toList_quoted, scanToken, (quotedToken_written h marked).scan hclosed]
  simp

theorem goes_quoted {ps} (h : ∀ n ∈ ps, n < 0x110000) (marked : Bool) (bs : List Char) :
    Goes bs (if marked then "u" ++ quoted ps else quoted ps).toList bs EndsWord
      (IsToken (.string (quotedToken (if marked then ['u'] else []) ps))) := by
  have hquote := isQuote_plainQuote ps
  refine .token ?_ ?_ (Nat.le_add_right ..) (by cases marked <;> rfl)
    fun g rest hrest => .inl (scanToken_quoted h marked hrest)
  all_goals rw [toList_quoted]
  · have hmark : Clean [plainQuote ps] := by
      rcases hquote with hq | hq <;> simp [Clean, hq]
    have hletters : Clean (if marked then ['u'] else []) := by cases marked <;> simp [Clean]
    exact ((hletters.append hmark).append (clean_quotedBody h)).append hmark
  · cases marked with
    | true => exact ⟨'u', _, rfl, by decide⟩
    | false =>
      exact ⟨plainQuote ps, _, rfl, by rcases hquote with hq | hq <;> (rw [hq]; decide)⟩

/-! ## Whole texts -/

theorem demoteAsync_steady {tokens} (h : ∀ t ∈ tokens, t.kind.isSteady = true ∨
    t.kind = .endMarker) (s : AsyncState) : demoteAsync s tokens = tokens := by
  induction tokens generalizing s with
  | nil => rfl
  | cons t rest ih =>
    obtain ⟨ht, hrest⟩ := List.forall_mem_cons.1 h
    have hih := fun s => ih hrest s
    obtain ⟨kind, span⟩ := t
    cases kind with
    | keyword word =>
      have hword : word ∉ outerWords := by simpa [TokenKind.isSteady, TokenKind.isPlain] using ht
      have hasync : word ≠ "async" := fun h => hword (h ▸ by decide)
      have hawait : word ≠ "await" := fun h => hword (h ▸ by decide)
      simp [demoteAsync, hasync, hawait, hih]
    | name _ | number _ | string _ | op _ | endMarker => simp [demoteAsync, hih]
    | newline | indent | dedent | typeComment _ | typeIgnore => simp [TokenKind.isSteady] at ht

section Whole

variable {text : List Char} {Ends : List Char → Prop} {Is : List Token → Prop}

/-- What the tokens of a text that goes through are. -/
def Written (text : List Char) (Is : List Token → Prop) (tokens : List Token) : Prop :=
  ∃ ts m, tokens = ts ++ [m] ∧ m.kind = .endMarker ∧ ts.length ≤ text.length ∧
    (∀ t ∈ ts, t.kind.isSteady = true) ∧ Is ts

theorem lex_of_goes (h : Goes [] text [] Ends Is) (hends : Ends [])
    (hhead : ∃ c r, text = c :: r ∧ isGap c = false) (o : LexOptions) :
    (∀ tokens, lex o text = some tokens → Written text Is tokens) ∧
      (openings text ≤ maxBrackets → ∃ tokens, lex o text = some tokens) := by
  obtain ⟨c, r, rfl, hc⟩ := hhead
  have hstart := lexStep_start (o := o) (r := r) hc
  have hinside : LexState.Stands { LexState.start (c :: r) with atLineStart := false } false []
      (c :: r ++ []) := ⟨rfl, rfl, (List.append_nil _).symm⟩
  constructor
  · intro tokens hlex
    obtain ⟨fuel, more, hmore, hall⟩ := lexFrom_more hlex hstart
    obtain rfl : tokens = more := hall
    obtain ⟨ts, next, hrun, hnext, hlength, hsteady, hts⟩ :=
      h.run hinside hends (.inl ⟨fuel, tokens, hmore⟩)
    obtain ⟨fuel', last, hlast, rfl⟩ := hrun.rest hmore
    obtain ⟨m, rfl, hm⟩ := lexFrom_stop hnext hlast
    exact ⟨ts, m, rfl, hm, hlength, hsteady, hts⟩
  · intro hroom
    obtain ⟨ts, next, hrun, hnext, hlength, -⟩ :=
      h.run (o := o) hinside hends (.inr (by simpa [LexState.start] using hroom))
    obtain ⟨tokens, htokens, -⟩ :=
      (hrun.yields (yields_stop hnext)).step hstart (2 * (c :: r).length + 4) (by omega)
    exact ⟨tokens, htokens⟩

theorem tokenize_of_goes (h : Goes [] text [] Ends Is) (hends : Ends [])
    (hhead : ∃ c r, text = c :: r ∧ isGap c = false) (d : Dialect) :
    (∀ x, tokenize d .origin false text = some x → Written text Is x.1) ∧
      (openings text ≤ maxBrackets → ∃ x, tokenize d .origin false text = some x) := by
  have hnull : text.contains '\x00' = false := by
    simpa using fun hmem => (h.clean _ hmem).2 rfl
  have hline : unifyLines false text = text := unifyLines_self fun hmem => (h.clean _ hmem).1 rfl
  obtain ⟨hlex, hroom⟩ := lex_of_goes h hends hhead
    { typeComments := d.typeComments, digitGroups := d.minor ≥ 6, line := Place.origin.line,
      col := Place.origin.col }
  unfold tokenize
  simp only [hnull, hline, Bool.false_eq_true, if_false]
  constructor
  · intro x hx
    obtain ⟨tokens, htokens, hx⟩ := Option.bind_eq_some_iff.1 hx
    obtain ⟨ts, m, hall, hm, -, hsteady, -⟩ := hlex tokens htokens
    have hkinds : ∀ t ∈ tokens, t.kind.isSteady = true ∨ t.kind = .endMarker := by
      rw [hall]
      exact List.forall_mem_append.2
        ⟨fun t ht => .inl (hsteady t ht), List.forall_mem_singleton.2 (.inr hm)⟩
    have hfilter : tokens.filter (·.kind != .typeIgnore) = tokens := by
      refine List.filter_eq_self.2 fun t ht => bne_iff_ne.2 fun hkind => ?_
      have := hkinds t ht
      rw [hkind] at this
      simp [TokenKind.isSteady] at this
    cases hx
    simpa only [hfilter, demoteAsync_steady hkinds, ite_self] using hlex tokens htokens
  · intro h
    obtain ⟨tokens, htokens⟩ := hroom h
    exact ⟨_, Option.bind_eq_some_iff.2 ⟨tokens, htokens, rfl⟩⟩

end Whole

end TypeStub.Syntax
