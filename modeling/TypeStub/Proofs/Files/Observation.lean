import Mathlib.Data.List.Infix
import TypeStub.Files.Store
/-!
# What is seen of a file tree

A tree is seen through what is at its places (`Entry.at?`). Changes of a tree are described by what
they do to this view: a change at a place is seen at and below the place and nowhere else
(`at?_change`).

Trees are plain if they have no symbolic links, if the names in a directory differ from each other,
and if none of them is `..`. Changes keep trees plain.
-/

namespace TypeStub.Files

/-- What is seen of an entry from outside. -/
inductive Item where
  | file (content : ByteArray) (executable : Bool)
  | dir
  | link (target : String)

namespace Entry

def item : Entry → Item
  | .file content executable => .file content executable
  | .dir _ => .dir
  | .link target => .link target

def at? (tree : Entry) (place : List String) : Option Item :=
  (tree.find? place).map item

/-! ## Following names -/

theorem find?_nil (e : Entry) : e.find? [] = some e := by
  rw [find?]

theorem find?_cons (e : Entry) (name : String) (rest : List String) :
    e.find? (name :: rest) = (e.child? name).bind (find? rest) := by
  rw [find?]
  cases e.child? name <;> rfl

theorem find?_append (a b : List String) (e : Entry) :
    e.find? (a ++ b) = (e.find? a).bind (find? b) := by
  induction a generalizing e with
  | nil => rw [List.nil_append, find?_nil, Option.bind_some]
  | cons name rest ih =>
    rw [List.cons_append, find?_cons, find?_cons]
    cases e.child? name with
    | none => rfl
    | some c => rw [Option.bind_some, Option.bind_some, ih]

theorem find?_single (e : Entry) (name : String) : e.find? [name] = e.child? name := by
  rw [find?_cons]
  cases e.child? name <;> rfl

theorem find?_concat (a : List String) (name : String) (e : Entry) :
    e.find? (a ++ [name]) = (e.find? a).bind (child? name) := by
  rw [find?_append]
  exact Option.bind_congr fun c _ => find?_single c name

variable {e c tree : Entry} {name : String} {place parent : List String}
  {entries : List (String × Entry)} {f : Option Entry → Option Entry}

/-- Only directories have something below them. -/
theorem isDir_of_child? (h : e.child? name = some c) : ∃ entries, e = .dir entries := by
  cases e with
  | dir entries => exact ⟨entries, rfl⟩
  | _ => cases h

/-- What lies below a place lies below a directory. -/
theorem find?_dir_of_append {a b} (h : e.find? (a ++ b) = some c) (hb : b ≠ []) :
    ∃ entries, e.find? a = some (.dir entries) := by
  obtain ⟨name, rest, rfl⟩ := List.exists_cons_of_ne_nil hb
  rw [find?_append] at h
  obtain ⟨d, hd, h⟩ := Option.bind_eq_some_iff.1 h
  rw [find?_cons] at h
  obtain ⟨x, hx, _⟩ := Option.bind_eq_some_iff.1 h
  obtain ⟨entries, rfl⟩ := isDir_of_child? hx
  exact ⟨entries, hd⟩

theorem at?_eq_dir : e.at? place = some .dir ↔ ∃ entries,
    e.find? place = some (.dir entries) := by
  unfold at?
  cases e.find? place with
  | none => simp
  | some c => cases c <;> simp [item]

theorem at?_eq_file {content executable} : e.at? place = some (.file content executable) ↔
      e.find? place = some (.file content executable) := by
  unfold at?
  cases e.find? place with
  | none => simp
  | some c => cases c <;> simp [item]

theorem at?_eq_none : e.at? place = none ↔ e.find? place = none := by
  rw [at?, Option.map_eq_none_iff]

/-- Nothing is below a place where no directory is. -/
theorem at?_append_eq_none {a b} (hb : b ≠ []) (h : e.at? a ≠ some .dir) :
    e.at? (a ++ b) = none := by
  rw [at?_eq_none]
  cases hc : e.find? (a ++ b) with
  | none => rfl
  | some c => exact absurd (at?_eq_dir.2 (find?_dir_of_append hc hb)) h

theorem at?_dir_above {a b} (h : e.at? b = some .dir) (hab : a <+: b) : e.at? a = some .dir := by
  obtain ⟨rest, rfl⟩ := hab
  by_cases hrest : rest = []
  · rwa [hrest, List.append_nil] at h
  · obtain ⟨entries, hentries⟩ := at?_eq_dir.1 h
    exact at?_eq_dir.2 (find?_dir_of_append hentries hrest)

theorem at?_append (a b : List String) (e : Entry) :
    e.at? (a ++ b) = (e.find? a).bind (at? · b) := by
  rw [at?, find?_append]
  cases e.find? a <;> rfl

/-! ## Plain trees -/

/-- A tree without symbolic links whose directories have distinct names, none of which is `..`. -/
inductive Plain : Entry → Prop
  | file {content : ByteArray} {executable : Bool} : Plain (.file content executable)
  | dir {entries : List (String × Entry)} : (entries.map (·.1)).Nodup →
      (∀ x ∈ entries, x.1 ≠ "..") → (∀ x ∈ entries, Plain x.2) → Plain (.dir entries)

theorem mem_of_lookup (h : entries.lookup name = some e) : (name, e) ∈ entries := by
  obtain ⟨front, back, rfl, -⟩ := List.lookup_eq_some_iff.1 h
  simp

theorem lookup_of_mem {x} (h : (entries.map (·.1)).Nodup) (hx : x ∈ entries) :
    entries.lookup x.1 = some x.2 := by
  obtain ⟨front, back, rfl⟩ := List.append_of_mem hx
  refine List.lookup_eq_some_iff.2 ⟨front, back, rfl, fun y hy => bne_iff_ne.2 fun heq => ?_⟩
  rw [List.map_append, List.nodup_append] at h
  exact h.2.2 _ (List.mem_map_of_mem hy) _ List.mem_cons_self heq.symm

theorem lookup_isSome : (entries.lookup name).isSome = true ↔ name ∈ entries.map (·.1) := by
  rw [List.lookup_isSome_iff, List.mem_map]
  exact exists_congr fun _ => and_congr_right fun _ => beq_iff_eq.trans eq_comm

theorem Plain.child (h : e.Plain) (hc : e.child? name = some c) : c.Plain ∧ name ≠ ".." := by
  cases h with
  | file => cases hc
  | dir _ hnames hentries =>
    have hmem := mem_of_lookup hc
    exact ⟨hentries _ hmem, hnames _ hmem⟩

theorem Plain.lookup (h : (Entry.dir entries).Plain) (hc : entries.lookup name = some c) :
    c.Plain := by
  cases h with
  | dir _ _ hentries => exact hentries _ (mem_of_lookup hc)

theorem Plain.find? {e c : Entry} {place : List String} (h : e.Plain)
    (hc : e.find? place = some c) : c.Plain ∧ ∀ name ∈ place, name ≠ ".." := by
  induction place generalizing e with
  | nil =>
    obtain rfl := Option.some.inj ((find?_nil e).symm.trans hc)
    exact ⟨h, by simp⟩
  | cons name rest ih =>
    rw [find?_cons] at hc
    obtain ⟨d, hd, hc⟩ := Option.bind_eq_some_iff.1 hc
    obtain ⟨hplain, hname⟩ := h.child hd
    obtain ⟨hc, hrest⟩ := ih hplain hc
    exact ⟨hc, List.forall_mem_cons.2 ⟨hname, hrest⟩⟩

theorem Plain.at?_cases (h : e.Plain) (place : List String) :
    e.at? place = none ∨ e.at? place = some .dir ∨
      ∃ content executable, e.at? place = some (.file content executable) := by
  unfold at?
  cases hc : e.find? place with
  | none => exact .inl rfl
  | some c =>
    cases (h.find? hc).1 with
    | file => exact .inr (.inr ⟨_, _, rfl⟩)
    | dir => exact .inr (.inl rfl)

/-! ## Changes -/

theorem lookup_changeNamed {n} (h : (entries.map (·.1)).Nodup) :
    (changeNamed name f entries).lookup n
      = if n = name then f (entries.lookup name) else entries.lookup n := by
  induction entries with
  | nil =>
    rw [changeNamed]
    split
    · next e he =>
      by_cases hn : n = name
      · simp [hn, he]
      · simp [List.lookup_cons, hn, beq_eq_false_iff_ne.2 hn]
    · next he => by_cases hn : n = name <;> simp [hn, he]
  | cons y rest ih =>
    obtain ⟨m, e⟩ := y
    obtain ⟨hm, hrest⟩ := List.nodup_cons.1 h
    rw [changeNamed]
    by_cases hname : m = name
    · subst hname
      -- the first entry is the one that changes; there is no other one with its name
      have hnone : rest.lookup m = none := by
        rw [← Option.not_isSome_iff_eq_none, lookup_isSome]
        exact hm
      simp only [BEq.rfl, if_true, List.lookup_cons]
      by_cases hn : n = m
      · subst hn
        simp only [BEq.rfl, if_true]
        cases f (some e) <;> simp [hnone]
      · have hne : (n == m) = false := beq_eq_false_iff_ne.2 hn
        simp only [hne, hn, if_false]
        cases f (some e) <;> simp [List.lookup_cons, hne]
    · have hne : (m == name) = false := beq_eq_false_iff_ne.2 hname
      have hne' : (name == m) = false := beq_eq_false_iff_ne.2 (Ne.symm hname)
      simp only [hne, Bool.false_eq_true, if_false, List.lookup_cons, ih hrest, hne']
      by_cases hn : n = m
      · subst hn
        simp [hname]
      · simp only [beq_eq_false_iff_ne.2 hn]

theorem nodup_changeNamed (h : (entries.map (·.1)).Nodup) :
    ((changeNamed name f entries).map (·.1)).Nodup := by
  induction entries with
  | nil =>
    rw [changeNamed]
    split <;> simp
  | cons y rest ih =>
    obtain ⟨n, e⟩ := y
    obtain ⟨hn, hrest⟩ := List.nodup_cons.1 h
    rw [changeNamed]
    split
    · split
      · exact h
      · exact hrest
    · next hne =>
      refine List.nodup_cons.2 ⟨?_, ih hrest⟩
      rwa [← lookup_isSome, lookup_changeNamed hrest, if_neg (by simpa using hne), lookup_isSome]

theorem mem_changeNamed {x} (h : (entries.map (·.1)).Nodup)
    (hx : x ∈ changeNamed name f entries) :
    x ∈ entries ∨ x.1 = name ∧ f (entries.lookup name) = some x.2 := by
  have hlookup := lookup_of_mem (nodup_changeNamed h) hx
  rw [lookup_changeNamed h] at hlookup
  split at hlookup
  · next hname => exact .inr ⟨hname, hlookup⟩
  · exact .inl (mem_of_lookup hlookup)

theorem child?_change_single {n} (h : (entries.map (·.1)).Nodup) :
    ((Entry.dir entries).change f [name]).child? n
      = if n = name then f (entries.lookup name) else entries.lookup n := by
  rw [change, child?, lookup_changeNamed h]

theorem child?_change_cons {n next rest} (h : (entries.map (·.1)).Nodup)
    (he : entries.lookup name = some e) :
    ((Entry.dir entries).change f (name :: next :: rest)).child? n
      = if n = name then some (e.change f (next :: rest)) else entries.lookup n := by
  rw [change, child?, lookup_changeNamed h, he]

theorem at?_nil (e : Entry) : e.at? [] = some e.item := by
  rw [at?, find?_nil, Option.map_some]

theorem at?_cons (e : Entry) (name : String) (rest : List String) :
    e.at? (name :: rest) = (e.child? name).bind (at? · rest) := by
  rw [at?, find?_cons]
  cases e.child? name <;> rfl

theorem Plain.changed (hplain : (Entry.dir entries).Plain) (hname : name ≠ "..")
    (hf : ∀ e, f (entries.lookup name) = some e → e.Plain) :
    (Entry.dir (changeNamed name f entries)).Plain := by
  cases hplain with
  | dir hnodup hnames hentries =>
    refine .dir (nodup_changeNamed hnodup) (fun x hx => ?_) (fun x hx => ?_)
    · obtain hx | ⟨hx, _⟩ := mem_changeNamed hnodup hx
      · exact hnames x hx
      · exact hx ▸ hname
    · obtain hx | ⟨_, hx⟩ := mem_changeNamed hnodup hx
      · exact hentries x hx
      · exact hf _ hx

section Changes

variable (hplain : tree.Plain) (hparent : tree.at? parent = some .dir)
include hplain hparent

/-- **A change at a place is seen at and below the place only.** -/
theorem at?_change (q : List String) : (tree.change f (parent ++ [name])).at? q
      = if parent ++ [name] <+: q then
          (f (tree.find? (parent ++ [name]))).bind (at? · (q.drop (parent.length + 1)))
        else tree.at? q := by
  induction parent generalizing tree q with
  | nil =>
    obtain ⟨entries, hentries⟩ := at?_eq_dir.1 hparent
    obtain rfl := Option.some.inj ((find?_nil tree).symm.trans hentries)
    cases hplain with
    | dir hnodup _ _ =>
      cases q with
      | nil => simp [change, at?_nil, item]
      | cons n rest =>
        rw [List.nil_append, at?_cons, child?_change_single hnodup, find?_single, at?_cons]
        by_cases hn : n = name
        · subst hn
          simp [child?]
        · simp [hn, child?, Ne.symm hn]
  | cons m ps ih =>
    rw [at?_cons] at hparent
    obtain ⟨c, hc, hps⟩ := Option.bind_eq_some_iff.1 hparent
    obtain ⟨entries, rfl⟩ := isDir_of_child? hc
    obtain ⟨hcplain, _⟩ := hplain.child hc
    obtain ⟨next, more, hnext⟩ : ∃ next more, ps ++ [name] = next :: more :=
      List.exists_cons_of_ne_nil (by simp)
    cases hplain with
    | dir hnodup _ _ =>
      cases q with
      | nil => simp [hnext, change, at?_nil, item]
      | cons n rest =>
        rw [List.cons_append, hnext, at?_cons, child?_change_cons hnodup hc, ← hnext,
          find?_cons, hc, at?_cons]
        by_cases hn : n = m
        · subst hn
          simp [ih hcplain hps, hc]
        · simp [hn, child?, Ne.symm hn]

theorem Plain.change (hname : name ≠ "..") (hf : ∀ found e, f found = some e → e.Plain) :
    (tree.change f (parent ++ [name])).Plain := by
  induction parent generalizing tree with
  | nil =>
    obtain ⟨entries, hentries⟩ := at?_eq_dir.1 hparent
    obtain rfl := Option.some.inj ((find?_nil tree).symm.trans hentries)
    exact hplain.changed hname fun e => hf _ e
  | cons m ps ih =>
    rw [at?_cons] at hparent
    obtain ⟨c, hc, hps⟩ := Option.bind_eq_some_iff.1 hparent
    obtain ⟨entries, rfl⟩ := isDir_of_child? hc
    obtain ⟨hcplain, hm⟩ := hplain.child hc
    obtain ⟨next, more, hnext⟩ : ∃ next more, ps ++ [name] = next :: more :=
      List.exists_cons_of_ne_nil (by simp)
    rw [List.cons_append, hnext, Entry.change]
    refine hplain.changed hm fun e he => ?_
    rw [show entries.lookup m = some c from hc] at he
    rw [← Option.some.inj he, ← hnext]
    exact ih hcplain hps

/-- An entry without anything below it that is put where no directory is. -/
theorem at?_put (hleaf : ∀ rest ≠ [], e.at? rest = none)
    (hnot : tree.at? (parent ++ [name]) ≠ some .dir) (q : List String) :
    (tree.put (parent ++ [name]) e).at? q
      = if q = parent ++ [name] then some e.item else tree.at? q := by
  rw [put, at?_change hplain hparent, Option.bind_some]
  by_cases hq : q = parent ++ [name]
  · subst hq
    simp [at?_nil]
  · rw [if_neg hq]
    split
    · next hprefix =>
      obtain ⟨rest, rfl⟩ := hprefix
      have hrest : rest ≠ [] := by
        rintro rfl
        exact hq (List.append_nil _)
      rw [at?_append_eq_none hrest hnot, List.drop_left' (by simp), hleaf rest hrest]
    · rfl

omit hplain hparent in
theorem at?_file {content executable} :
    ∀ rest ≠ [], (Entry.file content executable).at? rest = none := by
  intro rest hrest
  exact at?_append_eq_none (a := []) hrest (by rw [at?_nil]; simp [item])

omit hplain hparent in
theorem at?_emptyDir : ∀ rest ≠ [], emptyDir.at? rest = none := by
  intro rest hrest
  obtain ⟨name, more, rfl⟩ := List.exists_cons_of_ne_nil hrest
  rw [at?_cons]
  rfl

/-- Removing an entry takes everything below it with it. -/
theorem at?_erase (q : List String) : (tree.erase (parent ++ [name])).at? q
      = if parent ++ [name] <+: q then none else tree.at? q := by
  rw [erase, at?_change hplain hparent, Option.bind_none]

theorem Plain.put (hname : name ≠ "..") (he : e.Plain) : (tree.put (parent ++ [name]) e).Plain :=
  hplain.change hparent hname fun _ _ h => Option.some.inj h ▸ he

theorem Plain.erase (hname : name ≠ "..") : (tree.erase (parent ++ [name])).Plain :=
  hplain.change hparent hname nofun

end Changes

/-! ## The names in a directory -/

theorem mem_names : name ∈ e.names ↔ (e.child? name).isSome = true := by
  cases e with
  | dir entries => rw [names, List.mem_mergeSort, child?, lookup_isSome]
  | _ => simp [names, child?]

/-- The names in a directory come in order, each once. -/
theorem Plain.names_sorted (h : e.Plain) : e.names.Pairwise (· < ·) := by
  cases h with
  | file => exact .nil
  | @dir entries hnodup _ _ =>
    have hsorted : (Entry.dir entries).names.Pairwise fun a b => (!decide (b < a)) = true := by
      refine List.pairwise_mergeSort (fun a b c hab hbc => ?_) (fun a b => ?_) _
      · simp only [Bool.not_eq_true', decide_eq_false_iff_not, String.not_lt] at hab hbc ⊢
        exact String.le_trans hab hbc
      · simp only [Bool.or_eq_true, Bool.not_eq_true', decide_eq_false_iff_not, String.not_lt]
        exact String.le_total a b
    have hdistinct : (Entry.dir entries).names.Nodup :=
      (List.mergeSort_perm _ _).nodup_iff.2 hnodup
    refine (hsorted.and hdistinct).imp fun {a b} hab => ?_
    obtain ⟨hle, hne⟩ := hab
    simp only [Bool.not_eq_true', decide_eq_false_iff_not, String.not_lt] at hle
    exact String.not_le.1 fun hge => hne (String.le_antisymm hle hge)

/-! ## Depth -/

theorem depth_le_depthAll {x} (h : x ∈ entries) : x.2.depth ≤ depthAll entries := by
  induction entries with
  | nil => cases h
  | cons y rest ih =>
    rw [depthAll]
    obtain rfl | h := List.mem_cons.1 h
    · exact Nat.le_max_left _ _
    · exact Nat.le_trans (ih h) (Nat.le_max_right _ _)

theorem depth_child? (h : e.child? name = some c) : c.depth < e.depth := by
  obtain ⟨entries, rfl⟩ := isDir_of_child? h
  rw [depth]
  exact Nat.lt_succ_of_le (depth_le_depthAll (mem_of_lookup h))

theorem depth_find? (h : e.find? place = some c) : c.depth + place.length ≤ e.depth := by
  induction place generalizing e with
  | nil =>
    obtain rfl := Option.some.inj ((find?_nil e).symm.trans h)
    exact Nat.le_refl _
  | cons name rest ih =>
    rw [find?_cons] at h
    obtain ⟨d, hd, h⟩ := Option.bind_eq_some_iff.1 h
    have := ih h
    have := depth_child? hd
    rw [List.length_cons]
    omega

end Entry

end TypeStub.Files
