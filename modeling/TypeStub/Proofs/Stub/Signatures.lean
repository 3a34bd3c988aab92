import TypeStub.Proofs.Stub.Lines
import TypeStub.Proofs.Syntax.Endings
/-!
# Reading signatures back

A signature is written as pieces between commas. `ShownSignature.read` takes such pieces apart by
the grammar of parameters: those in front of a slash go by position only, those behind a star by
name only, and in between they go either way. What it finds in the pieces of a signature are the
parameters of the function, each with the text of its own type, and with a default value exactly
where it has one (`signature_reads_back`).
-/

namespace TypeStub

open TypeStub.Syntax TypeStub.Text

/-! ## The grammar of parameters -/

/-- A parameter as a signature shows it. -/
structure ShownParam where
  name : String
  annot : Option String
  hasDefault : Bool
  deriving DecidableEq

namespace ShownParam

def text (p : ShownParam) : String :=
  p.name ++ p.annot.elim "" (": " ++ ·) ++ if p.hasDefault then " = ..." else ""

def cutDefault (cs : List Char) : List Char × Bool :=
  if defaultMark.isSuffixOf cs then (cs.take (cs.length - defaultMark.length),
    true) else (cs, false)

/-- Reads a name, a type behind a colon, and the mark of a default value. -/
def read (cs : List Char) : Option ShownParam :=
  let name := cs.takeWhile isIdentifierPart
  if isIdentifier name then
    match cs.dropWhile isIdentifierPart with
    | ':' :: ' ' :: rest =>
      let (annot, hasDefault) := cutDefault rest
      some { name := String.ofList name, annot := some (String.ofList annot), hasDefault }
    | rest =>
      let (rest, hasDefault) := cutDefault rest
      if rest.isEmpty then some { name := String.ofList name, annot := none, hasDefault } else none
  else none

/-- The name is one, and the type does not end like a default value. -/
structure Clear (p : ShownParam) : Prop where
  name : isIdentifier p.name.toList = true
  annot : ∀ text ∈ p.annot, ¬ defaultMark <:+ text.toList

theorem cutDefault_append (cs : List Char) (h : ¬ defaultMark <:+ cs) (marked : Bool) :
    cutDefault (cs ++ (if marked then " = ..." else "").toList) = (cs, marked) := by
  cases marked with
  | true =>
    have hsuffix : defaultMark.isSuffixOf (cs ++ " = ...".toList) = true :=
      List.isSuffixOf_iff_suffix.2 (List.suffix_append ..)
    simp only [if_true, cutDefault, hsuffix]
    simp [defaultMark]
  | false =>
    have hsuffix : ¬ defaultMark.isSuffixOf cs = true :=
      fun hsuffix => h (List.isSuffixOf_iff_suffix.1 hsuffix)
    simp [cutDefault, hsuffix]

theorem split_name {name} (hname : isIdentifier name = true) (rest : List Char)
    (hrest : ∀ c ∈ rest.head?, isIdentifierPart c = false) :
    (name ++ rest).takeWhile isIdentifierPart = name ∧
      (name ++ rest).dropWhile isIdentifierPart = rest := by
  have hparts := isIdentifierPart_of_mem hname
  rw [List.takeWhile_append_of_pos hparts, List.dropWhile_append_of_pos hparts]
  cases rest with
  | nil => simp
  | cons c rest => simp [hrest c rfl]

theorem read_text {p} (h : p.Clear) : read p.text.toList = some p := by
  obtain ⟨name, annot, hasDefault⟩ := p
  simp only [text, String.toList_append, List.append_assoc]
  unfold read
  cases annot with
  | none =>
    obtain ⟨htake, hdrop⟩ := split_name h.name (if hasDefault then " = ..." else "").toList
      (by cases hasDefault <;> rintro c ⟨⟩; decide)
    simp only [Option.elim_none, String.toList_empty, List.nil_append, htake, hdrop, h.name]
    cases hasDefault <;> simp [cutDefault, defaultMark]
  | some annot =>
    obtain ⟨htake, hdrop⟩ := split_name h.name
      (": ".toList ++ (annot.toList ++ (if hasDefault then " = ..." else "").toList))
      (by rintro c ⟨⟩; decide)
    have hcut := cutDefault_append _ (h.annot annot rfl) hasDefault
    simp only [Option.elim_some, String.toList_append, List.append_assoc, htake, hdrop, h.name]
    simp [hcut]

end ShownParam

/-- What stands between two commas. -/
inductive SignaturePiece where
  | slash
  | star
  | vararg (p : ShownParam)
  | kwarg (p : ShownParam)
  | plain (p : ShownParam)

namespace SignaturePiece

def text : SignaturePiece → String
  | slash => "/"
  | star => "*"
  | vararg p => "*" ++ p.text
  | kwarg p => "**" ++ p.text
  | plain p => p.text

def read (text : String) : Option SignaturePiece :=
  match text.toList with
  | ['/'] => some slash
  | ['*'] => some star
  | '*' :: '*' :: rest => (ShownParam.read rest).map kwarg
  | '*' :: rest => (ShownParam.read rest).map vararg
  | rest => (ShownParam.read rest).map plain

/-- The parameter of a piece can be read. -/
def Clear : SignaturePiece → Prop
  | slash | star => True
  | vararg p | kwarg p | plain p => p.Clear

/-- A parameter starts with its name, and so with no sign. -/
theorem head_text {p : ShownParam} (h : p.Clear) :
    ∃ c rest, p.text.toList = c :: rest ∧ c ≠ '*' ∧ c ≠ '/' := by
  have hname := h.name
  cases hchars : p.name.toList with
  | nil =>
    rw [hchars] at hname
    cases hname
  | cons c rest =>
    have hc := isIdentifierPart_of_mem hname c (hchars ▸ List.mem_cons_self)
    refine ⟨c,
      _, by rw [ShownParam.text, String.toList_append, String.toList_append, hchars]; rfl,
      ?_, ?_⟩ <;>
    · rintro rfl
      exact absurd hc (by decide)

theorem read_text {piece : SignaturePiece} (h : piece.Clear) : read piece.text = some piece := by
  unfold read
  cases piece with
  | slash | star => rfl
  | vararg p =>
    have hread := ShownParam.read_text h
    obtain ⟨c, rest, hchars, hstar, -⟩ := head_text h
    rw [text, String.toList_append, hchars]
    simp [hstar, hchars ▸ hread]
  | kwarg p =>
    have hread := ShownParam.read_text h
    obtain ⟨c, rest, hchars, -⟩ := head_text h
    rw [text, String.toList_append, hchars]
    simp [hchars ▸ hread]
  | plain p =>
    have hread := ShownParam.read_text h
    obtain ⟨c, rest, hchars, hstar, hslash⟩ := head_text h
    rw [text, hchars]
    simp [hstar, hslash, hchars ▸ hread]

end SignaturePiece

/-- The parameters that a signature shows. -/
structure ShownSignature where
  posOnly : List ShownParam
  args : List ShownParam
  vararg : Option ShownParam
  kwOnly : List ShownParam
  kwarg : Option ShownParam
  deriving DecidableEq

namespace ShownSignature

def takeParams : List SignaturePiece → List ShownParam × List SignaturePiece
  | .plain p :: rest => (p :: (takeParams rest).1, (takeParams rest).2)
  | rest => ([], rest)

def takePositional (pieces : List SignaturePiece) :
    List ShownParam × List ShownParam × List SignaturePiece :=
  match takeParams pieces with
  | (p :: ps, .slash :: rest) => (p :: ps, takeParams rest)
  | (args, rest) => ([], args, rest)

/-- The parameter with a star, those behind it or behind a bare star, and what is left. A bare star
has parameters behind it. -/
def takeStarred : List SignaturePiece →
    Option (Option ShownParam × List ShownParam × List SignaturePiece)
  | .star :: .plain p :: rest => some (none, takeParams (.plain p :: rest))
  | .star :: _ => none
  | .vararg p :: rest => if p.hasDefault then none else some (some p, takeParams rest)
  | rest => some (none, [], rest)

def takeLast : List SignaturePiece → Option (Option ShownParam)
  | [] => some none
  | [.kwarg p] => if p.hasDefault then none else some (some p)
  | _ => none

def defaultsLast (ps : List ShownParam) : Bool :=
  ((ps.map ShownParam.hasDefault).dropWhile (!·)).all id

def ofPieces (pieces : List SignaturePiece) : Option ShownSignature :=
  let (posOnly, args, rest) := takePositional pieces
  if defaultsLast (posOnly ++ args) then do
    let (vararg, kwOnly, rest) ← takeStarred rest
    let kwarg ← takeLast rest
    return { posOnly, args, vararg, kwOnly, kwarg }
  else none

def read (texts : List String) : Option ShownSignature :=
  (texts.mapM SignaturePiece.read).bind ofPieces

/-! ## Reading what is written -/

def starredPieces (sig : ShownSignature) : List SignaturePiece :=
  sig.vararg.toList.map .vararg
    ++ (if sig.vararg.isNone && !sig.kwOnly.isEmpty then [.star] else [])
    ++ sig.kwOnly.map .plain ++ sig.kwarg.toList.map .kwarg

def pieces (sig : ShownSignature) : List SignaturePiece :=
  sig.posOnly.map .plain ++ (if sig.posOnly.isEmpty then [] else [.slash]) ++ sig.args.map .plain
    ++ sig.starredPieces

/-- A signature that can be written: default values stand behind each other, and not with stars. -/
structure Proper (sig : ShownSignature) : Prop where
  positional : defaultsLast (sig.posOnly ++ sig.args) = true
  vararg : ∀ p ∈ sig.vararg, p.hasDefault = false
  kwarg : ∀ p ∈ sig.kwarg, p.hasDefault = false

theorem takeParams_append (ps : List ShownParam) {rest}
    (h : ∀ p more, rest ≠ .plain p :: more) :
    takeParams (ps.map .plain ++ rest) = (ps, rest) := by
  induction ps with
  | nil =>
    rw [List.map_nil, List.nil_append]
    unfold takeParams
    split
    · exact absurd rfl (h _ _)
    · rfl
  | cons p ps ih => rw [List.map_cons, List.cons_append, takeParams, ih]

theorem starredPieces_head (sig : ShownSignature) :
    (∀ p more, sig.starredPieces ≠ .plain p :: more) ∧ ∀ more,
    sig.starredPieces ≠ .slash :: more := by
  obtain ⟨posOnly, args, vararg, kwOnly, kwarg⟩ := sig
  cases vararg <;> cases kwOnly <;> cases kwarg <;> simp [starredPieces]

theorem takePositional_pieces (sig : ShownSignature) :
    takePositional sig.pieces = (sig.posOnly, sig.args, sig.starredPieces) := by
  obtain ⟨hplain, hslash⟩ := sig.starredPieces_head
  unfold takePositional pieces
  cases sig.posOnly with
  | nil =>
    simp only [List.map_nil, List.isEmpty_nil, if_true, List.nil_append]
    rw [takeParams_append _ hplain]
    split
    · next heq =>
      obtain ⟨_, heq⟩ := Prod.mk.inj heq
      exact absurd heq (hslash _)
    · next heq =>
      cases heq
      rfl
  | cons p ps =>
    simp only [List.isEmpty_cons, Bool.false_eq_true, if_false, List.append_assoc]
    rw [takeParams_append (p :: ps) (by simp)]
    simp only [List.cons_append, List.nil_append]
    rw [takeParams_append _ hplain]

variable {sig : ShownSignature}

theorem takeStarred_pieces (h : sig.Proper) : takeStarred sig.starredPieces
      = some (sig.vararg, sig.kwOnly, sig.kwarg.toList.map .kwarg) := by
  have hkwarg : ∀ p more, sig.kwarg.toList.map .kwarg ≠ SignaturePiece.plain p :: more := by
    cases sig.kwarg <;> simp
  have hkwOnly := takeParams_append sig.kwOnly hkwarg
  unfold starredPieces
  cases hvararg : sig.vararg with
  | some v => simp [takeStarred, h.vararg v hvararg, hkwOnly]
  | none =>
    cases hnames : sig.kwOnly with
    | nil => cases sig.kwarg <;> simp [takeStarred]
    | cons p ps =>
      rw [hnames, List.map_cons, List.cons_append] at hkwOnly
      simp [takeStarred, hkwOnly]

theorem ofPieces_pieces (h : sig.Proper) : ofPieces sig.pieces = some sig := by
  have hlast : takeLast (sig.kwarg.toList.map .kwarg) = some sig.kwarg := by
    cases hkwarg : sig.kwarg with
    | none => rfl
    | some p => simp [takeLast, h.kwarg p hkwarg]
  simp [ofPieces, takePositional_pieces, h.positional, takeStarred_pieces h, hlast]

theorem read_texts (h : sig.Proper) (hclear : ∀ piece ∈ sig.pieces, piece.Clear) :
    read (sig.pieces.map SignaturePiece.text) = some sig := by
  have hpieces : ∀ {pieces : List SignaturePiece}, (∀ piece ∈ pieces, piece.Clear) →
      (pieces.map SignaturePiece.text).mapM SignaturePiece.read = some pieces := by
    intro pieces hclear
    induction pieces with
    | nil => rfl
    | cons piece rest ih =>
      obtain ⟨hpiece, hrest⟩ := List.forall_mem_cons.1 hclear
      rw [List.map_cons, List.mapM_cons, SignaturePiece.read_text hpiece, ih hrest]
      rfl
  rw [read, hpieces hclear, Option.bind_some, ofPieces_pieces h]

theorem slash_mem_pieces : .slash ∈ sig.pieces ↔ sig.posOnly ≠ [] := by
  simp [pieces, starredPieces]

theorem star_mem_pieces : .star ∈ sig.pieces ↔ sig.kwOnly ≠ [] ∧ sig.vararg = none := by
  simp [pieces, starredPieces, and_comm]

theorem text_mem_iff (hclear : ∀ piece ∈ sig.pieces, piece.Clear) {sign} (hsign : sign.Clear) :
    sign.text ∈ sig.pieces.map SignaturePiece.text ↔ sign ∈ sig.pieces := by
  refine ⟨fun h => ?_, List.mem_map_of_mem⟩
  obtain ⟨piece, hmem, htext⟩ := List.mem_map.1 h
  have hread := SignaturePiece.read_text (hclear piece hmem)
  rw [htext, SignaturePiece.read_text hsign] at hread
  exact Option.some.inj hread ▸ hmem

end ShownSignature

namespace Source

open StubM

variable {s : Source}

/-! ## Types -/

/-- The text of a type does not end with the dot of something that is no name: where it is printed,
it ends with a name that is one, and what is copied from the source is looked at. -/
def EndsWell (s : Source) : Expr → Prop
  | .subscript span value _ =>
    value.render = .ok "Literal" → ∀ text, s.piece span = .ok text →
      text.getLast? ≠ some '.'
  | .tuple .. | .list .. => True
  | .binOp _ _ .bitOr right => EndsWell s right
  | .constant _ (.str points _) => ∀ inner, s.readPoints points = .ok inner → inner.EndsNamed
  | e => e.EndsNamed

variable {text : String}

theorem harmless_appliedText {span value} {f : String → StubM String} [∀ head, Steady (f head)]
    (hf : ∀ head, (f head).outcome = .ok text → ∃ args, text = appliedText head args)
    (hcopied : value.render = .ok "Literal" →
      ∀ text, s.piece span = .ok text → text.getLast? ≠ some '.')
    (h : (exprLine value >>= fun head =>
      if head == "Literal" then s.spanText span else f head).outcome = .ok text) :
    Harmless text := by
  obtain ⟨head, hhead, h⟩ := outcome_bind_ok.1 h
  split at h
  · next hliteral =>
    obtain rfl := beq_iff_eq.1 hliteral
    obtain ⟨cs, hcs, rfl⟩ := spanText_ok.1 h
    have hdot := hcopied (exprLine_ok.1 hhead) cs hcs
    cases hlast : cs.getLast? with
    | none =>
      rw [List.getLast?_eq_none_iff.1 hlast]
      exact harmless_empty
    | some c =>
      refine harmless_of_last ?_
      rw [String.toList_ofList, endsSafely, hlast, Option.any_some, bne_iff_ne]
      rintro rfl
      exact hdot hlast
  · obtain ⟨args, rfl⟩ := hf head h
    exact harmless_append _ (by decide)

theorem harmless_quotedTypeText {span points marked}
    (he : ∀ inner, s.readPoints points = .ok inner → inner.EndsNamed)
    (h : (s.quotedTypeText (.constant span (.str points marked)) points).outcome = .ok text) :
    Harmless text := by
  unfold quotedTypeText at h
  split at h
  · next inner hread => exact (he inner hread).harmless (exprLine_ok.1 h)
  · exact Expr.harmless_of_isClosed rfl (exprLine_ok.1 h)
  · cases h

/-- The text of a type does not end like a default value. -/
theorem harmless_typeText (e : Expr) {text} (he : s.EndsWell e)
    (h : (s.typeText e).outcome = .ok text) : Harmless text := by
  unfold EndsWell at he
  split at he
  · next index =>
    by_cases htuple : ∃ span elts, index = .tuple span elts
    · obtain ⟨_, elts, rfl⟩ := htuple
      rw [typeText] at h
      refine harmless_appliedText (fun head h => ?_) he h
      rw [map_eq_pure_bind, outcome_bind_ok] at h
      obtain ⟨args, _, h⟩ := h
      exact ⟨args, (Except.ok.inj h).symm⟩
    · rw [typeText.eq_2 _ _ _ _ fun _ _ heq => htuple ⟨_, _, heq⟩] at h
      refine harmless_appliedText (fun head h => ?_) he h
      obtain ⟨arg, _, h⟩ := outcome_bind_ok.1 h
      exact ⟨[arg], (Except.ok.inj h).symm⟩
  iterate 2
    · rw [typeText] at h
      obtain ⟨texts, _, h⟩ := outcome_bind_ok.1 h
      cases h
      exact harmless_append _ (by decide)
  · next right =>
    rw [typeText] at h
    obtain ⟨l, _, h⟩ := outcome_bind_ok.1 h
    obtain ⟨r, hr, h⟩ := outcome_bind_ok.1 h
    cases h
    exact (harmless_typeText right he hr).operand (by decide) l
  · rw [typeText] at h
    exact harmless_quotedTypeText he h
  · next hsubscript htuple hlist hunion hquoted =>
    rw [typeText.eq_7 _ _ (fun _ _ _ _ => hsubscript _ _ _) hsubscript htuple hlist
      (fun _ _ _ => hunion _ _ _) hquoted] at h
    exact he.harmless (exprLine_ok.1 h)

/-! ## Signatures -/

/-- A signature shows a parameter: its name, and the text of its type. -/
def Shows (s : Source) (p : Param Expr) (shown : ShownParam) : Prop :=
  shown.name = p.name ∧
    Option.Rel (fun e text => (s.typeText e).outcome = .ok text) p.annot shown.annot

theorem defaultText_elided_eq (default : Option Expr) :
    defaultText .elided default = pure (if default.isSome then " = ..." else "") := by
  cases default <;> rfl

theorem paramText_ok {p default text} (h : (s.paramText .elided p default).outcome = .ok text) :
    ∃ shown : ShownParam, s.Shows p shown ∧ shown.hasDefault = default.isSome ∧
      text = shown.text := by
  rw [paramText, outcome_bind_of_ok (sayTypeComment_outcome ..), defaultText_elided_eq] at h
  obtain ⟨annotText, hannot, h⟩ := outcome_bind_ok.1 h
  cases h
  cases hp : p.annot with
  | none =>
    rw [hp] at hannot
    cases hannot
    exact ⟨⟨p.name, none, default.isSome⟩, ⟨rfl, hp ▸ .none⟩, rfl, rfl⟩
  | some e =>
    rw [hp] at hannot
    obtain ⟨type, htype, hannot⟩ := outcome_bind_ok.1 hannot
    cases hannot
    exact ⟨⟨p.name, some type, default.isSome⟩, ⟨rfl, hp ▸ .some htype⟩, rfl, rfl⟩

variable {texts : List String} {p : Option (Param Expr)} {ps : Params Expr}

theorem paramTexts_ok {ps} (h : (s.paramTexts .elided ps).outcome = .ok texts) :
    ∃ shown : List ShownParam, List.Forall₂ s.Shows (ps.map Prod.fst) shown ∧
      shown.map ShownParam.hasDefault = (ps.map Prod.snd).map Option.isSome ∧
      texts = shown.map ShownParam.text := by
  induction ps generalizing texts with
  | nil =>
    cases h
    exact ⟨[], .nil, rfl, rfl⟩
  | cons p ps ih =>
    obtain ⟨text, htext, h⟩ := outcome_bind_ok.1 h
    obtain ⟨more, hmore, h⟩ := outcome_bind_ok.1 h
    cases h
    obtain ⟨first, hfirst, hdefault, rfl⟩ := paramText_ok htext
    obtain ⟨shown, hshown, hdefaults, rfl⟩ := ih hmore
    exact ⟨first :: shown, .cons hfirst hshown, by simp [hdefault, hdefaults], rfl⟩

theorem variadicText_ok {sign} (h : (s.variadicText sign p).outcome = .ok texts) :
    ∃ shown : Option ShownParam, Option.Rel s.Shows p shown ∧
      (∀ x ∈ shown, x.hasDefault = false) ∧ texts = shown.toList.map fun x =>
      sign ++ x.text := by
  cases p with
  | none =>
    cases h
    exact ⟨none, .none, nofun, rfl⟩
  | some p =>
    obtain ⟨text, htext, h⟩ := outcome_bind_ok.1 h
    cases h
    obtain ⟨shown, hshown, hdefault, rfl⟩ := paramText_ok htext
    refine ⟨some shown, .some hshown, ?_, rfl⟩
    rintro _ ⟨⟩
    exact hdefault

/-- A signature shows the parameters of a function, in five groups. The last of those that may go by
position have the default values. -/
structure ShowsAll (s : Source) (ps : Params Expr) (sig : ShownSignature) : Prop where
  posOnly : List.Forall₂ s.Shows ps.posOnly sig.posOnly
  args : List.Forall₂ s.Shows ps.args sig.args
  vararg : Option.Rel s.Shows ps.vararg sig.vararg
  kwOnly : List.Forall₂ s.Shows ps.kwOnly sig.kwOnly
  kwarg : Option.Rel s.Shows ps.kwarg sig.kwarg
  defaults : (sig.posOnly ++ sig.args).map ShownParam.hasDefault
    = List.replicate (ps.posOnly.length + ps.args.length - ps.defaults.length) false
      ++ List.replicate ps.defaults.length true
  kwDefaults : sig.kwOnly.map ShownParam.hasDefault = ps.kwDefaults.map Option.isSome
  varargDefault : ∀ p ∈ sig.vararg, p.hasDefault = false
  kwargDefault : ∀ p ∈ sig.kwarg, p.hasDefault = false

/-- Parameters and as many places for default values, or more. -/
theorem paramTexts_zip {ps defaults} (hlen : ps.length ≤ defaults.length)
    (h : (s.paramTexts .elided (ps.zip defaults)).outcome = .ok texts) :
    ∃ shown : List ShownParam, List.Forall₂ s.Shows ps shown ∧
      shown.map ShownParam.hasDefault = (defaults.take ps.length).map Option.isSome ∧
      texts = shown.map ShownParam.text := by
  have hzip : ps.zip defaults = ps.zip (defaults.take ps.length) := by
    rw [List.zip_eq_zip_take_min, Nat.min_eq_left hlen, List.take_length]
  obtain ⟨shown, hshown, hdefaults, htexts⟩ := paramTexts_ok h
  rw [List.map_fst_zip hlen] at hshown
  rw [hzip, List.map_snd_zip (List.length_take_le ..)] at hdefaults
  exact ⟨shown, hshown, hdefaults, htexts⟩

theorem isEmpty_eq_of_shows {ps shown} (h : List.Forall₂ s.Shows ps shown) :
    ps.isEmpty = shown.isEmpty := by
  cases h <;> rfl

theorem isNone_eq_of_shown {shown} (h : Option.Rel s.Shows p shown) : p.isNone = shown.isNone := by
  cases h <;> rfl

theorem signaturePieces_ok (hdefaults : ps.defaults.length ≤ ps.posOnly.length + ps.args.length)
    (hkwDefaults : ps.kwDefaults.length = ps.kwOnly.length)
    (h : (s.signaturePieces ps).outcome = .ok texts) :
    ∃ sig, s.ShowsAll ps sig ∧ texts = sig.pieces.map SignaturePiece.text := by
  have hcount : (alignDefaults (ps.posOnly.length + ps.args.length) ps.defaults).length
      = ps.posOnly.length + ps.args.length := by
    simp [alignDefaults, hdefaults]
  simp only [signaturePieces, outcome_bind_ok, outcome_pure, Except.ok.injEq] at h
  obtain ⟨_, h₁, _, h₂, _, h₃, _, h₄, _, h₅, rfl⟩ := h
  obtain ⟨posOnly, hposOnly, hmarks₁, rfl⟩ := paramTexts_zip (by rw [hcount]; omega) h₁
  obtain ⟨args, hargs, hmarks₂, rfl⟩ :=
    paramTexts_zip (by rw [List.length_drop, hcount]; omega) h₂
  obtain ⟨vararg, hvararg, hvarargDefault, rfl⟩ := variadicText_ok h₃
  obtain ⟨kwOnly, hkwOnly, hmarks₄, rfl⟩ :=
    paramTexts_zip (Nat.le_of_eq hkwDefaults.symm) h₄
  obtain ⟨kwarg, hkwarg, hkwargDefault, rfl⟩ := variadicText_ok h₅
  refine ⟨⟨posOnly, args, vararg, kwOnly, kwarg⟩, ⟨hposOnly, hargs, hvararg, hkwOnly,
    hkwarg, ?_, ?_, hvarargDefault, hkwargDefault⟩, ?_⟩
  · rw [List.take_of_length_le (by rw [List.length_drop, hcount]; omega)] at hmarks₂
    rw [List.map_append, hmarks₁, hmarks₂, ← List.map_append, List.take_append_drop,
      alignDefaults]
    simp [Function.comp_def]
  · rw [hmarks₄, ← hkwDefaults, List.take_length]
  · rw [isEmpty_eq_of_shows hposOnly, isEmpty_eq_of_shows hkwOnly, isNone_eq_of_shown hvararg]
    simp only [ShownSignature.pieces, ShownSignature.starredPieces, List.map_append, List.map_map,
      List.append_assoc, apply_ite (List.map SignaturePiece.text), List.map_nil, List.map_cons]
    rfl

theorem ShowsAll.proper {sig} (h : s.ShowsAll ps sig) : sig.Proper where
  positional := by
    rw [ShownSignature.defaultsLast, h.defaults, List.dropWhile_append]
    simp
  vararg := h.varargDefault
  kwarg := h.kwargDefault

/-- The name of the parameter is one, and so is the name that its type ends with. -/
def WellNamed (s : Source) (p : Param Expr) : Prop :=
  isIdentifier p.name.toList = true ∧ ∀ e ∈ p.annot, s.EndsWell e

theorem Shows.clear {p shown} (h : s.Shows p shown) (hp : s.WellNamed p) : shown.Clear where
  name := h.1 ▸ hp.1
  annot text htext := by
    obtain ⟨_, hrel⟩ := h
    rw [htext] at hrel
    generalize hannot : p.annot = annot at hrel
    cases hrel with
    | some htype => exact (harmless_typeText _ (hp.2 _ hannot) htype).unmarked

theorem clear_of_shows {ps shown} (h : List.Forall₂ s.Shows ps shown)
    (hps : ∀ p ∈ ps, s.WellNamed p) : ∀ x ∈ shown, x.Clear :=
  forall_of_forall₂ h fun p hp _ hshown => hshown.clear (hps p hp)

theorem clear_of_shown {shown} (h : Option.Rel s.Shows p shown)
    (hp : ∀ q ∈ p.toList, s.WellNamed q) : ∀ x ∈ shown.toList, x.Clear := by
  cases h with
  | none => exact nofun
  | some h => exact clear_of_shows (.cons h .nil) hp

theorem ShowsAll.clear {sig} (h : s.ShowsAll ps sig) (hps : ∀ p ∈ ps.all, s.WellNamed p) :
    ∀ piece ∈ sig.pieces, piece.Clear := by
  simp only [Params.all, List.forall_mem_append] at hps
  obtain ⟨⟨⟨⟨hposOnly, hargs⟩, hvararg⟩, hkwOnly⟩, hkwarg⟩ := hps
  simp only [ShownSignature.pieces, ShownSignature.starredPieces, List.forall_mem_append,
    List.forall_mem_map]
  refine ⟨⟨⟨clear_of_shows h.posOnly hposOnly, ?_⟩, clear_of_shows h.args hargs⟩,
    ⟨⟨clear_of_shown h.vararg hvararg, ?_⟩, clear_of_shows h.kwOnly hkwOnly⟩,
    clear_of_shown h.kwarg hkwarg⟩ <;>
  · split <;> simp [SignaturePiece.Clear]

theorem returns_paramText {p default} :
    Returns (s.paramText .elided p default) ↔ ∀ e ∈ p.annot, Returns (s.typeText e) := by
  rw [paramText, returns_bind_of_ok (sayTypeComment_outcome ..), defaultText_elided_eq]
  simp only [pure_bind]
  rw [returns_bind_pure]
  cases p.annot with
  | none => simp [annotText, returns_pure]
  | some e =>
    rw [annotText, returns_bind_pure]
    simp

theorem returns_paramTexts {ps} : Returns (s.paramTexts .elided ps) ↔
      ∀ p ∈ ps.map Prod.fst, ∀ e ∈ p.annot, Returns (s.typeText e) := by
  induction ps with
  | nil => simp [paramTexts, returns_pure]
  | cons p ps ih =>
    rw [paramTexts, returns_bind_and fun _ => returns_bind_pure, returns_paramText, ih,
      List.map_cons, List.forall_mem_cons]

theorem returns_variadicText {sign} :
    Returns (s.variadicText sign p) ↔ ∀ q ∈ p.toList, ∀ e ∈ q.annot,
    Returns (s.typeText e) := by
  cases p with
  | none => simp [variadicText, returns_pure]
  | some p =>
    rw [variadicText, returns_bind_pure, returns_paramText]
    simp

theorem returns_signaturePieces (hkwDefaults : ps.kwDefaults.length = ps.kwOnly.length) :
    Returns (s.signaturePieces ps) ↔ ∀ p ∈ ps.all, ∀ e ∈ p.annot,
    Returns (s.typeText e) := by
  have hcount := alignDefaults_length (ps.posOnly.length + ps.args.length) ps.defaults
  rw [signaturePieces, returns_bind_and fun _ => returns_bind_and fun _ => returns_bind_and fun _ =>
    returns_bind_and fun _ => returns_bind_pure]
  rw [returns_paramTexts, returns_paramTexts, returns_paramTexts, returns_variadicText,
    returns_variadicText, List.map_fst_zip (Nat.le_trans (Nat.le_add_right _ _) hcount),
    List.map_fst_zip (List.length_drop ▸ Nat.le_sub_of_add_le' hcount),
    List.map_fst_zip (Nat.le_of_eq hkwDefaults.symm)]
  simp only [Params.all, List.forall_mem_append, and_assoc]

/-- **A signature reads back as the parameters of the function.** It has a text if all types in it
have one. The pieces between its commas show the parameters in their groups and order, each with the
text of its own type, and a default value exactly with the last ones that may go by position and
with those that have one of their own. A slash stands there if some parameters go by position only,
and a bare star if some go by name only and none takes all further arguments. -/
theorem signature_reads_back (s : Source) (ps : Params Expr)
    (hdefaults : ps.defaults.length ≤ ps.posOnly.length + ps.args.length)
    (hkwDefaults : ps.kwDefaults.length = ps.kwOnly.length)
    (hps : ∀ p ∈ ps.all, s.WellNamed p) :
    (Returns (s.signaturePieces ps) ↔ ∀ p ∈ ps.all, ∀ e ∈ p.annot,
      Returns (s.typeText e)) ∧ ∀ pieces, (s.signaturePieces ps).outcome = .ok pieces →
        (s.signatureText ps).outcome = .ok (join ", " pieces) ∧
        (∃ sig, ShownSignature.read pieces = some sig ∧ s.ShowsAll ps sig) ∧
        ("/" ∈ pieces ↔ ps.posOnly ≠ []) ∧
        ("*" ∈ pieces ↔ ps.kwOnly ≠ [] ∧ ps.vararg = none) := by
  refine ⟨returns_signaturePieces hkwDefaults, fun pieces h => ?_⟩
  obtain ⟨sig, hsig, rfl⟩ := signaturePieces_ok hdefaults hkwDefaults h
  have hclear := hsig.clear hps
  refine ⟨outcome_bind_of_ok h, ⟨sig, ShownSignature.read_texts hsig.proper hclear, hsig⟩, ?_,
    ?_⟩
  · have hnone := isEmpty_eq_of_shows hsig.posOnly
    rw [Ne, ← List.isEmpty_iff, hnone,
      List.isEmpty_iff, ← Ne, ← ShownSignature.slash_mem_pieces]
    exact ShownSignature.text_mem_iff hclear (show SignaturePiece.slash.Clear from trivial)
  · rw [Ne, ← List.isEmpty_iff, isEmpty_eq_of_shows hsig.kwOnly, List.isEmpty_iff, ← Ne,
      ← Option.isNone_iff_eq_none, isNone_eq_of_shown hsig.vararg, Option.isNone_iff_eq_none,
      ← ShownSignature.star_mem_pieces]
    exact ShownSignature.text_mem_iff hclear (show SignaturePiece.star.Clear from trivial)

/-- The parameters `a: int, /, b=0, *, c: ...=1, d: x | 'C', **rest`. -/
def sampleParams : Params Expr where
  posOnly := [⟨"a", some (.name default "int" .load), none⟩]
  args := [⟨"b", none, none⟩]
  vararg := none
  kwOnly := [⟨"c", some (.constant default .ellipsis), none⟩,
    ⟨"d", some (.binOp default (.name default "x" .load) .bitOr
      (.constant default (.str (points "C") false))), none⟩]
  kwDefaults := [some (.constant default (.int 1)), none]
  kwarg := some ⟨"rest", none, none⟩
  defaults := [.constant default (.int 0)]

theorem signature_reads_back_on_sample :
    let s : Source := { text := [], path := "", version := none, typeComments := false }
    let pieces := ["a: int", "/", "b = ...", "*", "c: ... = ...", "d: x | C", "**rest"]
    (∀ p ∈ sampleParams.all, s.WellNamed p) ∧ (s.signaturePieces sampleParams).outcome
    = .ok pieces ∧
      ∃ sig, ShownSignature.read pieces = some sig ∧ s.ShowsAll sampleParams sig := by
  intro s pieces
  have hps : ∀ p ∈ sampleParams.all, s.WellNamed p := by
    intro p hp
    simp only [sampleParams, Params.all, List.mem_append, List.mem_cons, List.not_mem_nil, or_false,
      Option.toList_none, Option.toList_some, or_assoc] at hp
    obtain rfl | rfl | rfl | rfl | rfl := hp <;> refine ⟨rfl, ?_⟩ <;> rintro _ ⟨⟩
    · exact .name rfl
    · exact .closed rfl
    · intro inner hinner
      have hread : s.readPoints (points "C") = .ok (.name ⟨1, 0, 1, 1⟩ "C" .load) := rfl
      cases hread.symm.trans hinner
      exact .name rfl
  have hpieces : (s.signaturePieces sampleParams).outcome = .ok pieces := rfl
  obtain ⟨_, hread, _⟩ :=
    (signature_reads_back s sampleParams (by decide) (by decide) hps).2 pieces hpieces
  exact ⟨hps, hpieces, hread⟩

end Source

end TypeStub
