import TypeStub.Docs
import TypeStub.Proofs.Config.Reloading
import TypeStub.Proofs.Text.Marks
/-!
# Documents are brought up to date once

Filling a region keeps what stands around it, and filling it again changes nothing
(`documents_renewed`). The second time the marks are looked for in a text whose middle is new, so it
has to be shown that no mark has come about there or across its ends.

* The start mark is found where it was, since nothing in front of its end has changed
  (`FirstAt.replace`).
* A stop mark starts with the line feed that a start mark ends with, and has no other one, so it
  cannot stand across a line feed; and what is filled in has no exclamation mark, which every stop
  mark has (`FirstAt.renew`).

That there is no exclamation mark in the new content is shown for the table of settings and for the
profiles as they are (`table_calm`, `profileText_calm`). Of what writes the settings of a profile no
more is used than that it brings in no exclamation mark itself; `Toml.write` does not
(`write_calm`).
-/

namespace TypeStub

open TypeStub.Text TypeStub.Data
/-! ## Filling a region -/

namespace Text

variable {mark text before after : List Char}

theorem FirstAt.replace (h : FirstAt mark text before after) (rest : List Char) :
    FirstAt mark (before ++ mark ++ rest) before rest where
  split := rfl
  least b a hb := by
    by_contra! hlt
    have hprefix : b ++ mark <+: before ++ mark :=
      List.prefix_of_prefix_length_le ⟨a, hb.symm⟩ ⟨rest, rfl⟩ (by simp; omega)
    obtain ⟨w, hw⟩ := hprefix
    have hle := h.least b (w ++ after) (by rw [h.split, ← hw, List.append_assoc])
    omega

theorem split_of_lineFeed {tail b a u v : List Char} (htail : '\n' ∉ tail)
    (h : u ++ '\n' :: v = b ++ '\n' :: tail ++ a) (hlt : b.length < u.length) :
    ∃ w, u = b ++ '\n' :: tail ++ w := by
  rcases List.append_eq_append_iff.1 h with ⟨w, hw, hv⟩ | ⟨w, hw, -⟩
  · cases w with
    | nil => exact ⟨[], by simpa using hw.symm⟩
    | cons c w =>
      obtain rfl : '\n' = c := (List.cons.inj hv).1
      obtain ⟨u', rfl⟩ : b <+: u :=
        List.prefix_of_prefix_length_le ⟨_, hw⟩ ⟨_, rfl⟩ (Nat.le_of_lt hlt)
      cases u' with
      | nil => simp at hlt
      | cons d u' =>
        simp only [List.append_assoc, List.append_cancel_left_eq, List.cons_append,
          List.cons.injEq] at hw
        exact absurd (by simp [hw.2]) htail
  · exact ⟨w, hw⟩

/-- The first place of a mark stays the first when what stands between a line feed and the mark is
replaced by something that has not all of its signs. -/
theorem FirstAt.renew {sign : Char} {u tail front rest content : List Char} (htail : '\n' ∉ tail)
    (hsign : sign ∈ tail) (hcontent : sign ∉ content) (htext : text = u ++ '\n' :: rest)
    (h : FirstAt ('\n' :: tail) text front after) (hle : u.length ≤ front.length) :
    FirstAt ('\n' :: tail) (u ++ '\n' :: content ++ '\n' :: tail ++ after) (u ++ '\n' :: content)
      after where
  split := rfl
  least b a hb := by
    by_contra hle'
    rw [List.append_assoc _ _ after, List.cons_append] at hb
    obtain ⟨w, hw⟩ := split_of_lineFeed htail hb (Nat.lt_of_not_le hle')
    rcases Nat.lt_or_ge b.length u.length with hb | hb
    · obtain ⟨w, rfl⟩ := split_of_lineFeed htail hw hb
      have hle' := h.least b (w ++ '\n' :: rest) (by rw [htext, List.append_assoc])
      omega
    · obtain ⟨b', rfl⟩ : u <+: b :=
        List.prefix_of_prefix_length_le ⟨_, rfl⟩ ⟨_, by rw [hw, List.append_assoc]⟩ hb
      have hmem : sign ∈ '\n' :: content := by
        rw [List.append_assoc, List.append_assoc, List.append_cancel_left_eq] at hw
        simp [hw, hsign]
      rcases List.mem_cons.1 hmem with rfl | hmem
      · exact htail hsign
      · exact hcontent hmem

end Text

namespace Docs

/-- The start mark of a region ends with a line feed, and the stop mark starts with one. -/
structure Region.Framed (r : Region) : Prop where
  start : r.start.toList.getLast? = some '\n'
  stop : r.stop.toList.head? = some '\n'
  single : '\n' ∉ r.stop.toList.tail
  sign : '!' ∈ r.stop.toList.tail

theorem settingsRegion_framed : settingsRegion.Framed :=
  ⟨by decide, by decide, by decide, by decide⟩

theorem profilesRegion_framed : profilesRegion.Framed :=
  ⟨by decide, by decide, by decide, by decide⟩

section Region

variable {r : Region} {text before rest front after content : List Char}

/-- The first start mark stands behind `before`, and the first stop mark stands in front of `after`.
It starts at the last character of the start mark or behind it: the two may share a line feed. -/
structure Region.Marked (r : Region) (text before after : List Char) : Prop where
  start : ∃ rest, FirstAt r.start.toList text before rest
  stop : ∃ front, FirstAt r.stop.toList text front after ∧
    before.length + r.start.length ≤ front.length + 1

instance : Decidable (r.Marked text before after) :=
  decidable_of_iff ((cut? r.start.toList text).any (fun c => c.1 = before) ∧
      (cut? r.stop.toList text).any fun c => c.2 = after ∧
        before.length + r.start.length ≤ c.1.length + 1) <| by
    simp only [Option.any_eq_true, decide_eq_true_eq, Prod.exists, cut?_eq_some_iff]
    constructor
    · rintro ⟨⟨_, rest, hstart, rfl⟩, front, _, hstop, rfl, hbehind⟩
      exact ⟨⟨rest, hstart⟩, front, hstop, hbehind⟩
    · rintro ⟨⟨rest, hstart⟩, front, hstop, hbehind⟩
      exact ⟨⟨_, rest, hstart, rfl⟩, front, _, hstop, rfl, hbehind⟩

def Region.filled (r : Region) (before content after : List Char) : List Char :=
  before ++ r.start.toList ++ content ++ r.stop.toList ++ after

theorem fill_eq (hstart : FirstAt r.start.toList text before rest)
    (hstop : FirstAt r.stop.toList text front after) (content : List Char) :
    r.fill text content = .ok (r.filled before content after) := by
  rw [Region.fill, cut?_eq_some_iff.2 hstart, cut?_eq_some_iff.2 hstop, Region.filled]

/-- A region is filled, and filling it again changes nothing. -/
theorem Region.Framed.fill_twice (hr : r.Framed) (hcontent : '!' ∉ content)
    (h : r.Marked text before after) :
    r.fill text content = .ok (r.filled before content after) ∧
      r.fill (r.filled before content after) content = .ok (r.filled before content after) := by
  obtain ⟨⟨rest, hstart⟩, front, hstop, hbehind⟩ := h
  refine ⟨fill_eq hstart hstop content, ?_⟩
  obtain ⟨first, hfirst⟩ := List.getLast?_eq_some_iff.1 hr.start
  obtain ⟨tail, htail⟩ := List.head?_eq_some_iff.1 hr.stop
  have hsingle : '\n' ∉ tail := by simpa [htail] using hr.single
  have hsign : '!' ∈ tail := by simpa [htail] using hr.sign
  have hlength : (before ++ first).length ≤ front.length := by
    rw [← String.length_toList, hfirst, List.length_append, List.length_singleton] at hbehind
    rw [List.length_append]
    omega
  have hstart' : FirstAt r.start.toList (r.filled before content after) before
      (content ++ r.stop.toList ++ after) := by
    simpa [Region.filled] using hstart.replace (content ++ r.stop.toList ++ after)
  have hstop' : FirstAt r.stop.toList (r.filled before content after)
      (before ++ r.start.toList ++ content) after := by
    have htext := hstart.split
    rw [htail] at hstop
    simpa [Region.filled, hfirst, htail] using
      hstop.renew hsingle hsign hcontent (by simpa [hfirst] using htext) hlength
  exact fill_eq hstart' hstop' content

end Region

end Docs

/-! ## Texts without exclamation marks -/

/-- A text has no exclamation mark. -/
def Calm (text : String) : Prop :=
  '!' ∉ text.toList

instance (text : String) : Decidable (Calm text) :=
  inferInstanceAs (Decidable (_ ∉ _))

namespace Calm

variable {a b sep : String} {texts : List String} {chars : List Char}

theorem of_eq (h : a = String.ofList chars) (hc : '!' ∉ chars) : Calm a := by
  rwa [Calm, h, String.toList_ofList]

theorem ofList (h : '!' ∉ chars) : Calm (String.ofList chars) :=
  of_eq rfl h

theorem append : Calm (a ++ b) ↔ Calm a ∧ Calm b := by
  rw [Calm, String.toList_append, List.mem_append, not_or]
  rfl

theorem join (hsep : Calm sep) (h : ∀ a ∈ texts, Calm a) : Calm (Text.join sep texts) := by
  induction texts with
  | nil => exact of_eq rfl (by decide)
  | cons a rest ih =>
    obtain ⟨ha, hrest⟩ := List.forall_mem_cons.1 h
    cases rest with
    | nil => exact ha
    | cons b rest => exact append.2 ⟨append.2 ⟨ha, hsep⟩, ih hrest⟩

theorem forall_nil : ∀ a ∈ ([] : List String), Calm a := by
  simp

theorem forall_cons (h : a = String.ofList chars) (hc : '!' ∉ chars)
    (htexts : ∀ b ∈ texts, Calm b) : ∀ b ∈ a :: texts, Calm b :=
  List.forall_mem_cons.2 ⟨of_eq h hc, htexts⟩

theorem joined (h : ∀ a ∈ texts, Calm a) : Calm (String.join texts) := by
  rw [Calm, String.toList_join, List.mem_flatMap]
  rintro ⟨a, ha, hc⟩
  exact h a ha hc

theorem stripEnd (h : '!' ∉ chars) : '!' ∉ Text.stripEnd chars := by
  obtain ⟨trail, htrail, -⟩ := dropTrailing_split (fun c : Char => isSpace c.toNat) chars
  rw [htrail, List.mem_append] at h
  exact fun hc => h (.inl hc)

theorem strip (h : '!' ∉ chars) : '!' ∉ Text.strip chars := by
  obtain ⟨lead, trail, hsplit, _⟩ := strip_split chars
  exact fun hc => h (hsplit ▸ by simp [hc])

end Calm

namespace Toml

/-- The texts in a value have no exclamation mark. -/
inductive CalmValue : Value → Prop
  | bool (b : Bool) : CalmValue (.bool b)
  | str {s : String} : Calm s → CalmValue (.str s)
  | list {items : List Value} : (∀ v ∈ items, CalmValue v) → CalmValue (.list items)
  | table {entries : List (String × Value)} : (∀ entry ∈ entries, Calm entry.1) →
      (∀ entry ∈ entries, CalmValue entry.2) → CalmValue (.table entries)

variable {entries : List (String × Value)} {s : String} {chars : List Char} (multiline : Bool)

theorem writtenChar_ne {c : Char} (h : c ≠ '!') : '!' ∉ writtenChar multiline c := by
  have hdigit (n : Nat) : hexDigit (n % 16) ≠ '!' := by
    have : n % 16 < 16 := Nat.mod_lt _ (by decide)
    generalize n % 16 = k at *
    revert k
    decide
  unfold writtenChar
  split <;> try split
  all_goals simp [hexDigits, h.symm, (hdigit _).symm]

theorem written_ne (h : '!' ∉ chars) :
    '!' ∉ chars.flatMap (writtenChar multiline) := by
  intro hc
  obtain ⟨c, hmem, hc⟩ := List.mem_flatMap.1 hc
  exact writtenChar_ne multiline (fun heq => h (heq ▸ hmem)) hc

theorem writtenLine_calm (h : Calm s) : Calm (writtenLine s) := by
  rw [writtenLine]
  exact .ofList (by simpa using written_ne false h)

theorem mem_joinLineEnds (h : '!' ∈ joinLineEnds chars) : '!' ∈ chars := by
  fun_induction joinLineEnds chars with
  | case1 => exact h
  | case2 rest ih => simp_all
  | case3 c rest _ ih =>
    rcases List.mem_cons.1 h with rfl | h
    · exact List.mem_cons_self
    · exact List.mem_cons_of_mem c (ih h)

theorem writtenString_calm (h : Calm s) : Calm (writtenString s) := by
  unfold writtenString
  split
  · have htext := Calm.ofList (written_ne true fun hc => h (mem_joinLineEnds hc))
    simp +decide [Calm.append, htext]
  · exact writtenLine_calm h

theorem writtenKey_calm (h : Calm s) : Calm (writtenKey s) := by
  unfold writtenKey
  split
  · exact h
  · exact writtenLine_calm h

theorem indentOf_calm (level : Nat) : Calm (indentOf level) :=
  .joined fun a ha => by
    rw [List.eq_of_mem_replicate ha]
    exact .of_eq rfl (by decide)

mutual

theorem literal_calm (level : Nat) : {v : Value} → CalmValue v → Calm (literal level v)
  | .bool true, _ | .bool false, _ | .list [], _ | .table [], _ => by
    rw [literal]
    decide
  | .str s, .str h => by
    rw [literal]
    exact writtenString_calm h
  | .list (v :: rest), .list h => by
    obtain ⟨hv, hrest⟩ := List.forall_mem_cons.1 h
    simp +decide [literal, Calm.append, indentOf_calm, literal_calm _ hv, moreItems_calm _ hrest]
  | .table ((key, v) :: rest), .table hkeys hvalues => by
    obtain ⟨hkey, hkeys⟩ := List.forall_mem_cons.1 hkeys
    obtain ⟨hv, hvalues⟩ := List.forall_mem_cons.1 hvalues
    simp +decide [literal, Calm.append, writtenKey_calm hkey, literal_calm _ hv,
      moreEntries_calm hkeys hvalues]

theorem moreItems_calm (level : Nat) :
    {vs : List Value} → (∀ v ∈ vs, CalmValue v) → Calm (moreItems level vs)
  | [], _ => by rw [moreItems]; decide
  | v :: rest, h => by
    obtain ⟨hv, hrest⟩ := List.forall_mem_cons.1 h
    simp +decide [moreItems, Calm.append, indentOf_calm, literal_calm _ hv, moreItems_calm _ hrest]

theorem moreEntries_calm : {entries : List (String × Value)} →
    (∀ entry ∈ entries, Calm entry.1) → (∀ entry ∈ entries, CalmValue entry.2) →
      Calm (moreEntries entries)
  | [], _, _ => by decide
  | (key, v) :: rest, hkeys, hvalues => by
    obtain ⟨hkey, hkeys⟩ := List.forall_mem_cons.1 hkeys
    obtain ⟨hv, hvalues⟩ := List.forall_mem_cons.1 hvalues
    simp +decide [moreEntries, Calm.append, writtenKey_calm hkey, literal_calm _ hv,
      moreEntries_calm hkeys hvalues]

end

theorem literalLines_calm (hkeys : ∀ entry ∈ entries, Calm entry.1)
    (hvalues : ∀ entry ∈ entries, CalmValue entry.2) : Calm (literalLines entries) := by
  refine .joined fun line hline => ?_
  obtain ⟨entry, hentry, rfl⟩ := List.mem_map.1 hline
  have hmem := List.mem_of_mem_filter hentry
  simp +decide [Calm.append, writtenKey_calm (hkeys entry hmem),
    literal_calm _ (hvalues entry hmem)]

theorem nameBelow_calm {outer key : String} (houter : Calm outer) (hkey : Calm key) :
    Calm (nameBelow outer key) := by
  unfold nameBelow
  split
  · exact writtenKey_calm hkey
  · simp +decide [Calm.append, houter, writtenKey_calm hkey]

mutual

theorem blocks_calm {name : String} (hname : Calm name) (inArray : Bool) :
    {v : Value} → CalmValue v → ∀ b ∈ blocks name inArray v, Calm b
  | .table entries, .table hkeys hvalues => by
    rw [blocks]
    intro b hb
    rcases List.mem_append.1 hb with hb | hb
    · obtain rfl := by simpa using (List.mem_ite_nil_left.1 hb).2
      refine Calm.append.2 ⟨?_, literalLines_calm hkeys hvalues⟩
      split
      · simp +decide [Calm.append, hname]
      · split <;> simp +decide [Calm.append, hname]
    · exact entryBlocks_calm hname hkeys hvalues b hb
  | .list items, .list h => by
    rw [blocks]
    split
    · exact arrayBlocks_calm hname h
    · simp
  | .bool _, _ | .str _, _ => by simp [blocks]

theorem entryBlocks_calm {name : String} (hname : Calm name) :
    {entries : List (String × Value)} →
    (∀ entry ∈ entries, Calm entry.1) → (∀ entry ∈ entries, CalmValue entry.2) →
      ∀ b ∈ entryBlocks name entries, Calm b
  | [], _, _ => by simp [entryBlocks]
  | (key, v) :: rest, hkeys, hvalues => by
    obtain ⟨hkey, hkeys⟩ := List.forall_mem_cons.1 hkeys
    obtain ⟨hv, hvalues⟩ := List.forall_mem_cons.1 hvalues
    rw [entryBlocks, List.forall_mem_append]
    exact ⟨blocks_calm (nameBelow_calm hname hkey) false hv,
      entryBlocks_calm hname hkeys hvalues⟩

theorem arrayBlocks_calm {name : String} (hname : Calm name) : {items : List Value} →
    (∀ v ∈ items, CalmValue v) → ∀ b ∈ arrayBlocks name items, Calm b
  | [], _ => by simp [arrayBlocks]
  | v :: rest, h => by
    obtain ⟨hv, hrest⟩ := List.forall_mem_cons.1 h
    rw [arrayBlocks, List.forall_mem_append]
    exact ⟨blocks_calm hname true hv, arrayBlocks_calm hname hrest⟩

end

/-- A document is written without exclamation marks if its texts have none. -/
theorem write_calm (h : CalmValue (.table entries)) :
    Calm (write entries) :=
  .join (by decide) (blocks_calm (by decide) false h)

end Toml

/-! ## What is filled in -/

namespace Config

/-- The texts in a setting have no exclamation mark. -/
def Setting.IsCalm : Setting → Prop
  | .text s | .filter (.expr s) => Calm s
  | .filter (.flag _) => True
  | .commands entries =>
    ∀ cmd, .command cmd ∈ entries → Calm cmd.name ∧ ∀ arg ∈ cmd.cmdline, Calm arg

theorem commandValue_calm {entry : CommandEntry} {v : Value} (h : commandValue entry = .ok v)
    (hcalm : ∀ cmd, entry = .command cmd → Calm cmd.name ∧
    ∀ arg ∈ cmd.cmdline, Calm arg) : Toml.CalmValue v := by
  cases entry with
  | other => cases h
  | command cmd =>
    cases h
    obtain ⟨hname, hargs⟩ := hcalm cmd rfl
    have hlist : Toml.CalmValue (.list (cmd.cmdline.map .str)) := .list fun v hv => by
      obtain ⟨arg, harg, rfl⟩ := List.mem_map.1 hv
      exact .str (hargs arg harg)
    exact .table (by simp +decide) (by simpa using ⟨.str hname, hlist⟩)

theorem settingValue_calm {s : Setting} {v : Value} (hs : s.IsCalm)
    (h : settingValue true s = .ok v) : Toml.CalmValue v := by
  cases s with
  | text t =>
    cases h
    exact .str hs
  | filter t =>
    cases h
    cases t with
    | flag b => exact .bool b
    | expr t =>
      simp only [filterValue, if_true]
      split
      · exact .bool _
      · split
        · exact .bool _
        · refine .str (.ofList fun hc => ?_)
          obtain hc | hc | hc := mem_reindented hc
          · cases hc
          · cases hc
          · exact hs hc
  | commands entries =>
    obtain ⟨items, hitems, h⟩ := ok_of_bind h
    cases h
    refine .list fun v hv => ?_
    obtain ⟨entry, hentry, hvalue⟩ := mem_of_mapM hitems v hv
    exact commandValue_calm hvalue fun cmd heq => hs cmd (heq ▸ hentry)

theorem key_calm (f : Field) : Calm f.key := by
  cases f <;> exact .of_eq rfl (by decide)

theorem shownSetting_calm {c : Config} {f : Field} {l} (hc : ∀ s, c.get f = some s → s.IsCalm)
    (h : c.shownSetting true f = .ok l) : ∀ entry ∈ l, Calm entry.1 ∧
    Toml.CalmValue entry.2 := by
  unfold shownSetting at h
  cases hget : c.get f with
  | none =>
    rw [hget] at h
    cases h
    simp
  | some s =>
    rw [hget] at h
    obtain ⟨v, hv, h⟩ := ok_of_bind h
    cases h
    intro entry hentry
    obtain rfl := List.mem_singleton.1 hentry
    exact ⟨key_calm f, settingValue_calm (hc s hget) hv⟩

/-- A configuration is shown without exclamation marks if its settings have none, by whatever brings
in none itself. -/
theorem render_calm {write : Toml.Writer}
    (hwrite : ∀ entries, Toml.CalmValue (.table entries) → Calm (write entries)) {c : Config}
    {text : String} (hc : ∀ f s, c.get f = some s → s.IsCalm)
    (h : c.render "toml" write = .ok text) : Calm text := by
  rw [render, entriesFor] at h
  obtain ⟨shown, hshown, h⟩ := ok_of_bind h
  obtain ⟨all, hall, hflat⟩ := ok_of_bind hshown
  cases hflat
  obtain rfl : String.ofList
      (strip (write [("tool", .table [("dubstub", .table all.flatten)])]).toList) = text := by
    simpa [pure, Except.pure] using h
  have hentry : ∀ entry ∈ all.flatten, Calm entry.1 ∧ Toml.CalmValue entry.2 := by
    intro entry hentry
    obtain ⟨l, hl, hentry⟩ := List.mem_flatten.1 hentry
    obtain ⟨f, -, hf⟩ := mem_of_mapM hall l hl
    exact shownSetting_calm (hc f) hf entry hentry
  refine .ofList (Calm.strip (hwrite _ ?_))
  have hshown : Toml.CalmValue (.table all.flatten) :=
    .table (fun entry h => (hentry entry h).1) fun entry h => (hentry entry h).2
  have houter : Toml.CalmValue (.table [("dubstub", .table all.flatten)]) :=
    .table (by simp +decide) (by simpa using hshown)
  exact .table (by simp +decide) (by simpa using houter)

set_option maxRecDepth 4000 in
theorem profiles_isCalm {p : Profile} (hp : p ∈ profiles) {f : Field} {s : Setting}
    (h : p.config.get f = some s) : s.IsCalm := by
  simp only [profiles, List.mem_cons, List.not_mem_nil, or_false] at hp
  rcases hp with rfl | rfl | rfl <;> cases f <;> cases h <;>
    first | exact Calm.of_eq rfl (by decide) | exact trivial | simp +decide [Setting.IsCalm]

set_option maxRecDepth 4000 in
theorem description_calm (f : Field) : Calm f.description := by
  cases f <;> refine .join (by decide) ?_ <;>
    repeat first | exact Calm.forall_nil | refine Calm.forall_cons rfl (by decide) ?_

set_option maxRecDepth 4000 in
theorem profile_calm {p : Profile} (hp : p ∈ profiles) : Calm p.name ∧ Calm p.description := by
  simp only [profiles, List.mem_cons, List.not_mem_nil, or_false] at hp
  rcases hp with rfl | rfl | rfl <;> refine ⟨.of_eq rfl (by decide), .join (by decide) ?_⟩ <;>
    repeat first | exact Calm.forall_nil | refine Calm.forall_cons rfl (by decide) ?_

theorem render_ok (write : Toml.Writer) {p : Profile} (hp : p ∈ profiles) :
    ∃ text, p.config.render "toml" write = .ok text := by
  obtain ⟨shown, hshown⟩ := entries_ok (c := p.config) fun entries hentries => by
    have hall := List.all_eq_true.1 ValidConfig.profiles_isCommand p hp
    rwa [hentries] at hall
  exact ⟨_, by rw [render, entriesFor, show ("toml" == "toml") = true from rfl, hshown]; rfl⟩

end Config

namespace Docs

open Config

theorem profileText_ok (write : Toml.Writer) {p : Profile} (hp : p ∈ profiles) :
    ∃ text, profileText write p = .ok text := by
  obtain ⟨settings, hsettings⟩ := render_ok write hp
  exact ⟨_, by rw [profileText, hsettings]⟩

theorem profileText_calm {write : Toml.Writer}
    (hwrite : ∀ entries, Toml.CalmValue (.table entries) → Calm (write entries)) {p : Profile}
    (hp : p ∈ profiles) {text : String} (h : profileText write p = .ok text) : Calm text := by
  obtain ⟨settings, hsettings⟩ := render_ok write hp
  rw [profileText, hsettings] at h
  cases h
  have hcalm := render_calm hwrite (fun f s => profiles_isCalm hp) hsettings
  obtain ⟨hname, hdescription⟩ := profile_calm hp
  refine .join (by decide) ?_
  simp +decide [Calm.append, hname, hdescription, hcalm]

/-- A renderer that shows what it was given. -/
def enclosed : Renderer := fun text => "<gfm>" ++ text ++ "</gfm>"

theorem enclosed_dedented_calm {text : String} (h : Calm text) : Calm (enclosed.dedented text) := by
  have hdedent : Calm (String.ofList (dedent text.toList)) := .ofList fun hc =>
    (mem_dedent hc).elim (by decide) h
  simp +decide [Renderer.dedented, enclosed, Calm.append, hdedent]

theorem mem_replaceFrom {mark new text : List Char} {skip : Nat} {c : Char}
    (h : c ∈ replaceFrom mark new skip text) : c ∈ new ∨ c ∈ text := by
  fun_induction replaceFrom mark new skip text with
  | case1 => simp at h
  | case2 skip d rest ih => exact (ih h).imp id (List.mem_cons_of_mem d)
  | case3 d rest _ ih =>
    rcases List.mem_append.1 h with h | h
    · exact .inl h
    · exact (ih h).imp id (List.mem_cons_of_mem d)
  | case4 d rest _ ih =>
    rcases List.mem_cons.1 h with rfl | h
    · exact .inr List.mem_cons_self
    · exact (ih h).imp id (List.mem_cons_of_mem d)

theorem replaceEach_calm {changes : List (String × String)} {text : String}
    (h : ∀ change ∈ changes, Calm change.2) (htext : Calm text) :
    Calm (replaceEach changes text) := by
  refine .ofList ?_
  unfold Calm at htext
  generalize text.toList = chars at htext
  induction changes generalizing chars with
  | nil => exact htext
  | cons change changes ih =>
    obtain ⟨hchange, hchanges⟩ := List.forall_mem_cons.1 h
    exact ih hchanges _ fun hc => (mem_replaceFrom hc).elim hchange htext

theorem cellKey_calm (n : Nat) : Calm (cellKey n) := by
  have hdecimal : Calm (decimal n) := fun hc => absurd (isDigit_of_mem_decimal hc) (by decide)
  simp +decide [cellKey, Calm.append, hdecimal]

theorem rowsText_calm (n : Nat) (rows : List (List String)) : Calm (rowsText n rows) := by
  induction rows generalizing n with
  | nil =>
    rw [rowsText]
    decide
  | cons row rest ih =>
    have hrow : Calm (String.join ((List.range row.length).map fun i =>
        " " ++ cellKey (n + i) ++ " |")) := .joined fun a ha => by
      obtain ⟨i, -, rfl⟩ := List.mem_map.1 ha
      simp +decide [Calm.append, cellKey_calm]
    simp +decide [rowsText, rowText, Calm.append, hrow, ih]

/-- A rendered table has no exclamation mark if its cells have none. -/
theorem table_calm {cols : List String} {rows : List (List String)}
    (hcols : ∀ col ∈ cols, Calm col)
    (hrows : ∀ row ∈ rows, ∀ cell ∈ row, Calm cell) : Calm (table enclosed cols rows) := by
  have hhead : Calm (join " | " cols) := .join (by decide) hcols
  have hline : Calm (String.join (cols.map fun _ => " --- |")) := .joined fun a ha => by
    obtain ⟨col, -, rfl⟩ := List.mem_map.1 ha
    decide
  have htext : Calm (tableText cols rows) := by
    rw [tableText]
    simp only [Calm.append, hhead, hline, rowsText_calm, and_true]
    decide
  refine .ofList (Calm.stripEnd (replaceEach_calm (fun change hchange => ?_)
    (enclosed_dedented_calm htext)))
  obtain ⟨⟨cell, i⟩, hcell, rfl⟩ := List.mem_map.1 hchange
  obtain ⟨row, hrow, hcell⟩ := List.mem_flatten.1 (List.fst_mem_of_mem_zipIdx hcell)
  exact enclosed_dedented_calm (hrows row hrow cell hcell)

theorem settingRows_calm : ∀ row ∈ settingRows, ∀ cell ∈ row, Calm cell := by
  intro row hrow
  obtain ⟨f, -, rfl⟩ := List.mem_map.1 hrow
  have htype : Calm f.validatedType.text := by
    cases f <;> decide
  simp +decide [Calm.append, key_calm, htype, description_calm]

/-- **Documents about settings and profiles are brought up to date once.** Where the marks of a
region stand one behind the other, the region is filled, whatever stands around it is kept, and
doing it again changes nothing. The settings of a profile may be written by whatever brings in no
exclamation mark. -/
theorem documents_renewed {write : Toml.Writer}
    (hwrite : ∀ entries, Toml.CalmValue (.table entries) → Calm (write entries)) :
    (∀ text before after, settingsRegion.Marked text before after →
      let content := (table enclosed ["Config Setting", "Description"] settingRows).toList
      let renewed := settingsRegion.filled before content after
      withSettings enclosed text = .ok renewed ∧ withSettings enclosed renewed = .ok renewed) ∧
    ∃ texts, profiles.mapM (profileText write) = .ok texts ∧
      ∀ text before after, profilesRegion.Marked text before after →
        let renewed := profilesRegion.filled before (String.join texts).toList after
        withProfiles write text = .ok renewed ∧ withProfiles write renewed = .ok renewed := by
  refine ⟨fun text before after hmarked =>
    settingsRegion_framed.fill_twice (table_calm (by decide) settingRows_calm) hmarked, ?_⟩
  obtain ⟨texts, htexts⟩ := mapM_ok fun p hp => profileText_ok write hp
  have hcalm : Calm (String.join texts) := .joined fun text htext => by
    obtain ⟨p, hp, hprofile⟩ := mem_of_mapM htexts text htext
    exact profileText_calm hwrite hp hprofile
  have hfill : withProfiles write = (profilesRegion.fill · (String.join texts).toList) := by
    funext text
    rw [withProfiles, htexts]
    rfl
  refine ⟨texts, htexts, fun text before after hmarked => ?_⟩
  rw [hfill]
  exact profilesRegion_framed.fill_twice hcalm hmarked

/-! In a document that is made new nothing stands between the marks: they share their line feed. -/

def blankSettings : List Char × List Char :=
  ("\n# debug config\n".toList,
    "\n\n# debug profiles\n<!-- PROFILE_START -->\n<!-- PROFILE_END -->\n".toList)

def blankProfiles : List Char × List Char :=
  ("\n# debug config\n<!-- CONFIG_START -->\n<!-- CONFIG_END -->\n\n# debug profiles\n".toList,
    "\n".toList)

theorem documents_renewed_on_blank :
    settingsRegion.Marked blank.toList blankSettings.1 blankSettings.2 ∧
      profilesRegion.Marked blank.toList blankProfiles.1 blankProfiles.2 ∧
      (∃ renewed, withSettings enclosed blank.toList = .ok renewed ∧
        withSettings enclosed renewed = .ok renewed) ∧
      ∃ renewed, withProfiles Toml.write blank.toList = .ok renewed ∧
        withProfiles Toml.write renewed = .ok renewed := by
  have hmarked : settingsRegion.Marked blank.toList blankSettings.1 blankSettings.2 ∧
      profilesRegion.Marked blank.toList blankProfiles.1 blankProfiles.2 := by decide +kernel
  obtain ⟨hsettings, texts, -, hprofiles⟩ := documents_renewed fun _ => Toml.write_calm
  exact ⟨hmarked.1, hmarked.2, ⟨_, hsettings _ _ _ hmarked.1⟩,
    ⟨_, hprofiles _ _ _ hmarked.2⟩⟩

end Docs

end TypeStub
