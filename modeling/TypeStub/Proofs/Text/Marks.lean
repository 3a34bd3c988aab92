import TypeStub.Proofs.Text.Lines
import TypeStub.Text.Replace
/-!
# Marks in text

Where a mark stands first in a text, and what replacing several marks one after the other comes to:
if a mark starts with a sign that stands nowhere else in it, and what is put in place of a mark has
no character of the marks that are replaced later, then all of them are replaced at once.
-/

namespace TypeStub.Text

variable {mark text before after pre : List Char}

/-! ## The first place of a mark -/

theorem dropPrefix?_eq_some {rest} : dropPrefix? pre text = some rest ↔ text = pre ++ rest :=
  ⟨dropPrefix?_split, fun h => h ▸ dropPrefix?_self pre rest⟩

theorem startsWith_iff : startsWith pre text = true ↔ pre <+: text := by
  rw [startsWith, Option.isSome_iff_exists]
  exact exists_congr fun rest => dropPrefix?_eq_some.trans eq_comm

theorem not_prefix_of_dropPrefix? (h : dropPrefix? pre text = none) : ¬ pre <+: text := by
  rw [← startsWith_iff, startsWith, h]
  exact Bool.false_ne_true

/-- A text has a mark between the two parts, and nowhere further to the left. -/
structure FirstAt (mark text before after : List Char) : Prop where
  split : text = before ++ mark ++ after
  least : ∀ b a, text = b ++ mark ++ a → before.length ≤ b.length

theorem FirstAt.cons {c : Char} (h : FirstAt mark text before after)
    (hstart : ¬ mark <+: c :: text) : FirstAt mark (c :: text) (c :: before) after where
  split := by rw [h.split]; rfl
  least b a hb := by
    cases b with
    | nil => exact absurd ⟨a, hb.symm⟩ hstart
    | cons d b => exact Nat.succ_le_succ (h.least b a (List.cons.inj hb).2)

theorem cut?_firstAt (h : cut? mark text = some (before, after)) :
    FirstAt mark text before after := by
  fun_induction cut? mark text generalizing before with
  | case1 hmark =>
    obtain rfl := List.isEmpty_iff.1 hmark
    cases h
    exact ⟨rfl, by simp⟩
  | case2 => cases h
  | case3 c rest _ hdrop =>
    cases h
    exact ⟨dropPrefix?_split hdrop, by simp⟩
  | case4 c rest hdrop ih =>
    obtain ⟨⟨front, back⟩, hcut, heq⟩ := Option.map_eq_some_iff.1 h
    cases heq
    exact (ih hcut).cons (not_prefix_of_dropPrefix? hdrop)

theorem cut?_isSome : (cut? mark text).isSome = true ↔ mark <:+: text := by
  constructor
  · intro h
    obtain ⟨⟨before, after⟩, hcut⟩ := Option.isSome_iff_exists.1 h
    exact ⟨before, after, (cut?_firstAt hcut).split.symm⟩
  · intro h
    fun_induction cut? mark text with
    | case1 => rfl
    | case2 hmark => simp_all
    | case3 => rfl
    | case4 c rest hdrop ih =>
      rw [Option.isSome_map]
      exact ih ((List.infix_cons_iff.1 h).resolve_left (not_prefix_of_dropPrefix? hdrop))

theorem occurs_iff : occurs mark text = true ↔ mark <:+: text :=
  cut?_isSome

theorem cut?_eq_some_iff :
    cut? mark text = some (before, after) ↔ FirstAt mark text before after := by
  refine ⟨cut?_firstAt, fun h => ?_⟩
  obtain ⟨⟨front, back⟩, hcut⟩ :=
    Option.isSome_iff_exists.1 (cut?_isSome.2 ⟨before, after, h.split.symm⟩)
  have hfront := cut?_firstAt hcut
  have hlength : before.length = front.length :=
    Nat.le_antisymm (h.least _ _ hfront.split) (hfront.least _ _ h.split)
  have heq : before ++ (mark ++ after) = front ++ (mark ++ back) := by
    rw [← List.append_assoc, ← List.append_assoc, ← h.split, ← hfront.split]
  obtain ⟨rfl, htail⟩ := List.append_inj heq hlength
  rw [hcut, List.append_cancel_left htail]

/-! ## Replacing all marks at once -/

abbrev Changes := List (List Char × List Char)

def Changes.here? (changes : Changes) (text : List Char) : Option (List Char × List Char) :=
  changes.find? fun change => startsWith change.1 text

/-- Replaces marks at once, from the left, in a text whose first `skip` characters belong to a mark
before it. -/
def substituteFrom (changes : Changes) : (skip : Nat) → List Char → List Char
  | _, [] => []
  | skip + 1, _ :: rest => substituteFrom changes skip rest
  | 0, c :: rest =>
    match changes.here? (c :: rest) with
    | some (mark, new) => new ++ substituteFrom changes (mark.length - 1) rest
    | none => c :: substituteFrom changes 0 rest

/-- The text with every mark replaced at once. What is put in place of a mark is not looked at
again. -/
def substitute (changes : Changes) (text : List Char) : List Char :=
  substituteFrom changes 0 text

/-- A mark starts with a dollar sign and has no other one. -/
def IsMark (mark : List Char) : Prop :=
  mark.head? = some '$' ∧ '$' ∉ mark.tail

instance (mark : List Char) : Decidable (IsMark mark) :=
  inferInstanceAs (Decidable (_ ∧ _))

theorem IsMark.eq_cons (h : IsMark mark) : ∃ rest, mark = '$' :: rest ∧ '$' ∉ rest := by
  obtain ⟨hhead, htail⟩ := h
  cases mark with
  | nil => cases hhead
  | cons c rest =>
    cases hhead
    exact ⟨rest, rfl, htail⟩

variable {changes : Changes} {new : List Char} {c : Char} {rest : List Char}

theorem substituteFrom_eq (skip : Nat) (text : List Char) :
    substituteFrom changes skip text = substitute changes (text.drop skip) := by
  induction skip generalizing text with
  | zero => rfl
  | succ skip ih =>
    cases text with
    | nil => simp [substitute, substituteFrom]
    | cons c rest => exact ih rest

theorem substitute_nil (text : List Char) : substitute [] text = text := by
  induction text with
  | nil => rfl
  | cons c rest ih => exact congrArg (c :: ·) ih

theorem substitute_cons_of_none (h : changes.here? (c :: rest) = none) :
    substitute changes (c :: rest) = c :: substitute changes rest := by
  rw [substitute, substituteFrom, h]
  rfl

theorem substitute_of_here (hmark : IsMark mark)
    (h : changes.here? (mark ++ rest) = some (mark, new)) :
    substitute changes (mark ++ rest) = new ++ substitute changes rest := by
  obtain ⟨tail, rfl, _⟩ := hmark.eq_cons
  rw [List.cons_append] at h ⊢
  rw [substitute, substituteFrom, h]
  simp [substituteFrom_eq]

theorem here?_eq_some (h : changes.here? text = some (mark, new)) :
    (mark, new) ∈ changes ∧ ∃ rest, text = mark ++ rest := by
  obtain ⟨rest, hrest⟩ :=
    startsWith_iff.1 (List.find?_some (p := fun change => startsWith _ _) h)
  exact ⟨List.mem_of_find?_eq_some h, rest, hrest.symm⟩

theorem replaceFrom_eq (skip : Nat) (text : List Char) :
    replaceFrom mark new skip text = substituteFrom [(mark, new)] skip text := by
  fun_induction replaceFrom mark new skip text with
  | case1 => simp [substituteFrom]
  | case2 skip c rest ih => rw [ih, substituteFrom]
  | case3 c rest hstart ih | case4 c rest hstart ih =>
    simp [substituteFrom, Changes.here?, hstart, ih]

/-- A text is read from the left: a mark at a time, or a character that no mark starts at. -/
theorem scan_induction {P : List Char → Prop} (hmarks : ∀ change ∈ changes, IsMark change.1)
    (nil : P [])
    (here : ∀ mark new rest, (mark, new) ∈ changes →
      changes.here? (mark ++ rest) = some (mark, new) → P rest → P (mark ++ rest))
    (other : ∀ c rest, changes.here? (c :: rest) = none → (∀ t, t <:+ rest → P t) →
    P (c :: rest)) (text : List Char) : P text := by
  induction hn : text.length using Nat.strongRecOn generalizing text with
  | ind n ih =>
    subst hn
    cases text with
    | nil => exact nil
    | cons c rest =>
      cases hhere : changes.here? (c :: rest) with
      | none =>
        exact other c rest hhere fun t ht => ih _ (Nat.lt_succ_of_le ht.length_le) t rfl
      | some change =>
        obtain ⟨mark, new⟩ := change
        obtain ⟨hmem, rest', hrest⟩ := here?_eq_some hhere
        obtain ⟨tail, rfl, _⟩ := (hmarks _ hmem).eq_cons
        rw [hrest] at hhere ih ⊢
        exact here _ new rest' hmem hhere
          (ih _ (by rw [List.length_append, List.length_cons]; omega) rest' rfl)

section Marks

variable (hmarks : ∀ change ∈ changes, IsMark change.1)
include hmarks

/-- No mark starts at another character than a dollar sign. -/
theorem here?_eq_none (hc : c ≠ '$') : changes.here? (c :: rest) = none := by
  rw [Changes.here?, List.find?_eq_none]
  intro change hchange hstart
  obtain ⟨tail, htail, _⟩ := (hmarks change hchange).eq_cons
  obtain ⟨_, heq⟩ := startsWith_iff.1 hstart
  rw [htail] at heq
  exact hc (List.cons.inj heq).1.symm

/-- Text without a dollar sign stays as it is. -/
theorem substitute_append (h : '$' ∉ pre) :
    substitute changes (pre ++ rest) = pre ++ substitute changes rest := by
  induction pre with
  | nil => rfl
  | cons c pre ih =>
    obtain ⟨hc, hpre⟩ := List.ne_and_not_mem_of_not_mem_cons h
    rw [List.cons_append, substitute_cons_of_none (here?_eq_none hmarks hc.symm), ih hpre,
      List.cons_append]

theorem substitute_mark_append (hmark : IsMark mark) (h : changes.here? (mark ++ rest) = none) :
    substitute changes (mark ++ rest) = mark ++ substitute changes rest := by
  obtain ⟨tail, rfl, htail⟩ := hmark.eq_cons
  rw [List.cons_append] at h ⊢
  rw [substitute_cons_of_none h, substitute_append hmarks htail, List.cons_append]

/-- What comes out at the start, and has no character of what was put in, stood there. -/
theorem prefix_of_prefix_substitute
    (hnew : ∀ change ∈ changes, change.2 ≠ [] ∧ ∀ c ∈ change.2, c ∉ pre)
    (h : pre <+: substitute changes text) : pre <+: text := by
  induction text using scan_induction hmarks generalizing pre with
  | nil => exact h
  | here mark new rest hmem hhere _ =>
    rw [substitute_of_here (hmarks _ hmem) hhere] at h
    obtain ⟨hne, hfree⟩ := hnew _ hmem
    obtain ⟨e, more, rfl⟩ := List.exists_cons_of_ne_nil hne
    cases pre with
    | nil => exact List.nil_prefix
    | cons d pre =>
      obtain ⟨rfl, _⟩ := List.cons_prefix_cons.1 h
      exact absurd List.mem_cons_self (hfree d List.mem_cons_self)
  | other c rest hnone ih =>
    rw [substitute_cons_of_none hnone] at h
    cases pre with
    | nil => exact List.nil_prefix
    | cons d pre =>
      obtain ⟨rfl, hpre⟩ := List.cons_prefix_cons.1 h
      refine List.cons_prefix_cons.2 ⟨rfl, ih rest List.suffix_rfl (fun change hchange =>
        ?_) hpre⟩
      obtain ⟨hne, hfree⟩ := hnew change hchange
      exact ⟨hne, fun c hc hmem => hfree c hc (List.mem_cons_of_mem _ hmem)⟩

end Marks

/-! ## One mark after the other -/

/-- A change leaves a later mark alone: what it puts in is not empty and has no character of the
mark. -/
structure Spares (change : List Char × List Char) (mark : List Char) : Prop where
  isMark : IsMark change.1
  filled : change.2 ≠ []
  foreign : ∀ c ∈ change.2, c ∉ mark

theorem Spares.plain {change} (h : Spares change mark) (hmark : IsMark mark) : '$' ∉ change.2 :=
  fun hc => h.foreign _ hc (List.mem_of_mem_head? hmark.1)

section Later

variable (hmark : IsMark mark) (hspares : ∀ change ∈ changes, Spares change mark)
include hmark hspares

/-- What was put in takes no part in a later mark. -/
theorem prefix_cons_substitute (h : mark <+: c :: substitute changes rest) :
    mark <+: c :: rest := by
  obtain ⟨tail, rfl, _⟩ := hmark.eq_cons
  obtain ⟨rfl, htail⟩ := List.cons_prefix_cons.1 h
  refine List.cons_prefix_cons.2 ⟨rfl, ?_⟩
  refine prefix_of_prefix_substitute (fun change hmem => (hspares change hmem).isMark)
    (fun change hmem => ⟨(hspares change hmem).filled, fun c hc hin => ?_⟩) htail
  exact (hspares change hmem).foreign c hc (List.mem_cons_of_mem _ hin)

/-- Replacing a mark after others is replacing it together with them. -/
theorem substitute_substitute (new text : List Char) :
    substitute [(mark, new)] (substitute changes text)
    = substitute (changes ++ [(mark, new)]) text := by
  have hmarks : ∀ change ∈ changes, IsMark change.1 := fun change hmem =>
    (hspares change hmem).isMark
  have hone : ∀ change ∈ [(mark, new)], IsMark change.1 := by simpa using hmark
  have hboth (t : List Char) : (changes ++ [(mark, new)]).here? t
      = (changes.here? t).or (Changes.here? [(mark, new)] t) := List.find?_append
  induction text using scan_induction hmarks with
  | nil => rfl
  | here mark' new' rest hmem hhere ih =>
    have hhere' := (hboth _).trans (by rw [hhere, Option.some_or])
    rw [substitute_of_here (hmarks _ hmem) hhere, substitute_of_here (hmarks _ hmem) hhere',
      substitute_append hone ((hspares _ hmem).plain hmark), ih]
  | other c rest hnone ih =>
    have hsame := (hboth (c :: rest)).trans (by rw [hnone, Option.none_or])
    by_cases hstart : mark <+: c :: rest
    · obtain ⟨after, hafter⟩ := hstart
      have hfound (t : List Char) : Changes.here? [(mark, new)] (mark ++ t) = some (mark, new) := by
        simp [Changes.here?, startsWith_iff.2 (List.prefix_append mark t)]
      have hsuffix : after <:+ rest := by
        obtain ⟨tail, rfl, _⟩ := hmark.eq_cons
        exact ⟨tail, (List.cons.inj hafter).2⟩
      rw [← hafter] at hnone hsame ⊢
      rw [substitute_mark_append hmarks hmark hnone, substitute_of_here hmark (hfound _),
        substitute_of_here hmark (hsame.trans (hfound _)), ih after hsuffix]
    · have hfound {t} (h : ¬ mark <+: c :: t) : Changes.here? [(mark, new)] (c :: t) = none := by
        simpa [Changes.here?, startsWith_iff] using h
      rw [substitute_cons_of_none hnone, substitute_cons_of_none (hsame.trans (hfound hstart)),
        substitute_cons_of_none (hfound fun h => hstart (prefix_cons_substitute hmark hspares h)),
        ih rest List.suffix_rfl]

/-- A mark that no change replaces is left where it is, and none comes about. -/
theorem infix_substitute_iff (happart : ∀ change ∈ changes, ¬ change.1 <+: mark ∧
    ¬ mark <+: change.1) : mark <:+: substitute changes text ↔ mark <:+: text := by
  have hmarks : ∀ change ∈ changes, IsMark change.1 := fun change hmem =>
    (hspares change hmem).isMark
  have hplain {t rest} (ht : '$' ∉ t) : mark <:+: t ++ rest ↔ mark <:+: rest := by
    obtain ⟨tail, rfl, _⟩ := hmark.eq_cons
    induction t with
    | nil => rfl
    | cons c t iht =>
      obtain ⟨hc, ht⟩ := List.ne_and_not_mem_of_not_mem_cons ht
      simp [List.infix_cons_iff, hc, iht ht]
  induction text using scan_induction hmarks with
  | nil => rfl
  | here mark' new' rest hmem hhere ih =>
    rw [substitute_of_here (hmarks _ hmem) hhere, hplain ((hspares _ hmem).plain hmark)]
    refine Iff.trans ih ?_
    obtain ⟨tail, rfl, htail⟩ := (hmarks _ hmem).eq_cons
    have hnot : ¬ mark <+: '$' :: (tail ++ rest) := fun h =>
      (List.prefix_or_prefix_of_prefix h (List.prefix_append ('$' :: tail) rest)).elim
        (happart _ hmem).2 (happart _ hmem).1
    rw [List.cons_append, List.infix_cons_iff, hplain htail]
    simp [hnot]
  | other c rest hnone ih =>
    rw [substitute_cons_of_none hnone, List.infix_cons_iff, List.infix_cons_iff]
    refine or_congr ⟨prefix_cons_substitute hmark hspares, ?_⟩ (ih rest List.suffix_rfl)
    rintro ⟨after, hafter⟩
    rw [← hafter] at hnone
    rw [← substitute_cons_of_none (hafter ▸ hnone), ← hafter,
      substitute_mark_append hmarks hmark hnone]
    exact List.prefix_append _ _

end Later

theorem foldl_replaceAll (before : Changes) {changes : Changes}
    (hmarks : ∀ change ∈ changes, IsMark change.1)
    (hspares : ∀ change ∈ before, ∀ later ∈ changes, Spares change later.1)
    (hpairs : changes.Pairwise fun a b => Spares a b.1) (text : List Char) :
    changes.foldl (fun t change => replaceAll change.1 change.2 t) (substitute before text)
      = substitute (before ++ changes) text := by
  induction changes generalizing before with
  | nil => simp
  | cons change changes ih =>
    obtain ⟨hfirst, hpairs⟩ := List.pairwise_cons.1 hpairs
    have hstep : replaceAll change.1 change.2 (substitute before text)
        = substitute (before ++ [change]) text := by
      rw [replaceAll, replaceFrom_eq, ← substitute,
        substitute_substitute (hmarks _ List.mem_cons_self)
        (fun early hearly => hspares early hearly _ List.mem_cons_self)]
    rw [List.foldl_cons, hstep,
      ih _ (fun later hlater => hmarks later (List.mem_cons_of_mem _ hlater)) _ hpairs,
      List.append_assoc, List.singleton_append]
    intro early hearly later hlater
    rcases List.mem_append.1 hearly with hearly | hearly
    · exact hspares early hearly later (List.mem_cons_of_mem _ hlater)
    · rw [List.mem_singleton.1 hearly]
      exact hfirst later hlater

/-- Changes that find the same marks all along a text do the same to it. -/
theorem substitute_congr {changes' : Changes}
    (h : ∀ t, t <:+ text → changes.here? t = changes'.here? t) :
    substitute changes text = substitute changes' text := by
  unfold substitute
  generalize (0 : Nat) = skip
  fun_induction substituteFrom changes skip text with
  | case1 => simp [substituteFrom]
  | case2 skip c rest ih =>
    rw [substituteFrom, ih fun t ht => h t (ht.trans (List.suffix_cons c rest))]
  | case3 c rest mark new hhere ih | case4 c rest hhere ih =>
    rw [substituteFrom, ← h _ List.suffix_rfl, hhere,
      ih fun t ht => h t (ht.trans (List.suffix_cons c rest))]

theorem substitute_absent (changes : Changes) (new : List Char) (more : Changes)
    (h : ¬ mark <:+: text) :
    substitute (changes ++ (mark, new) :: more) text = substitute (changes ++ more) text := by
  refine substitute_congr fun t ht => ?_
  have hstart : startsWith mark t = false := by
    rw [← Bool.not_eq_true, startsWith_iff]
    exact fun hstart => h (hstart.isInfix.trans ht.isInfix)
  simp only [Changes.here?, List.find?_append, List.find?_cons, hstart]

end TypeStub.Text
