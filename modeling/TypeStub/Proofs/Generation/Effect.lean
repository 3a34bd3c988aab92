import TypeStub.Proofs.Generation.Outputs
/-!
# Effects of steps

What was done to the files is described by the places that were cleaned and the files that were made
(`Effect`). A step extends it: cleaning a place below which nothing was made (`Effect.clean`), and
making a file out of the way of the others (`Effect.write`). The steps of a generation run are of
these two kinds (`clean_ok`, `copyTo_ok`, `writeStub_ok`).
-/

namespace TypeStub.Generation

open TypeStub.Files TypeStub.WorkM Store

/-! ## Effects -/

section Effects

variable {cleaned : List String → Prop} {made : List String → Item → Prop}
  {v v₁ v₂ : List String → Option Item}

/-- What is seen after some places were cleaned and some files were made:

* the files that were made, in the directories that lead to them (`outputs`, `leading`);
* nothing else at and below the places that were cleaned (`swept`);
* everywhere else what was there before (`kept`). A directory that leads to a file there was a
  directory before, or there was nothing (`parents`). -/
structure Effect (cleaned : List String → Prop) (made : List String → Item → Prop)
    (before after : List String → Option Item) : Prop where
  outputs : ∀ f item, made f item → after f = some item
  leading : ∀ f item q, made f item → q <+: f → q ≠ f → after q = some .dir
  swept : ∀ r q, cleaned r → r <+: q → (∀ f item, made f item → ¬ q <+: f) →
    after q = none
  kept : ∀ q, (∀ r, cleaned r → ¬ r <+: q) → (∀ f item, made f item → ¬ q <+: f) →
    after q = before q
  parents : ∀ f item q, made f item → q <+: f → (∀ r, cleaned r → ¬ r <+: q) →
    before q = none ∨ before q = some .dir

namespace Effect

theorem refl (v : List String → Option Item) :
    Effect (fun _ => False) (fun _ _ => False) v v where
  outputs := nofun
  leading := nofun
  swept := nofun
  kept := fun _ _ _ => rfl
  parents := nofun

theorem clean (h : Effect cleaned made v v₁) {r} (hmade : ∀ f item, made f item → ¬ r <+: f)
    (hview : ∀ q, v₂ q = if r <+: q then none else v₁ q) :
    Effect (fun r' => cleaned r' ∨ r' = r) made v v₂ where
  outputs f item hf := by
    rw [hview, if_neg (hmade f item hf)]
    exact h.outputs f item hf
  leading f item q hf hq hne := by
    rw [hview, if_neg fun hr => hmade f item hf (hr.trans hq)]
    exact h.leading f item q hf hq hne
  swept r' q hr' hq hnone := by
    rw [hview]
    split
    · rfl
    · next hr =>
      obtain hr' | rfl := hr'
      · exact h.swept r' q hr' hq hnone
      · exact absurd hq hr
  kept q hout hnone := by
    rw [hview, if_neg (hout r (.inr rfl))]
    exact h.kept q (fun r' hr' => hout r' (.inl hr')) hnone
  parents f item q hf hq hout := h.parents f item q hf hq fun r' hr' => hout r' (.inl hr')

theorem write (h : Effect cleaned made v v₁) {f item}
    (hfree : ∀ g i, made g i → ¬ g <+: f ∧ ¬ f <+: g)
    (hview : ∀ q, v₂ q = if q = f then some item else if q <+: f then some .dir else v₁ q)
    (hbefore : ∀ q, q <+: f → v₁ q = none ∨ v₁ q = some .dir) :
    Effect cleaned (fun g i => made g i ∨ g = f ∧ i = item) v v₂ where
  outputs g i hg := by
    obtain hg | ⟨rfl, rfl⟩ := hg
    · obtain ⟨hgf, _⟩ := hfree g i hg
      have hne : g ≠ f := fun heq => hgf (heq ▸ List.prefix_refl _)
      rw [hview, if_neg hne, if_neg hgf]
      exact h.outputs g i hg
    · rw [hview, if_pos rfl]
  leading g i q hg hq hne := by
    rw [hview]
    obtain hg | ⟨rfl, rfl⟩ := hg
    · have hqf : q ≠ f := fun heq => (hfree g i hg).2 (heq ▸ hq)
      rw [if_neg hqf]
      split
      · rfl
      · exact h.leading g i q hg hq hne
    · rw [if_neg hne, if_pos hq]
  swept r q hr hq hnone := by
    have hqf := hnone f item (.inr ⟨rfl, rfl⟩)
    have hne : q ≠ f := fun heq => hqf (heq ▸ List.prefix_refl _)
    rw [hview, if_neg hne, if_neg hqf]
    exact h.swept r q hr hq fun g i hg => hnone g i (.inl hg)
  kept q hout hnone := by
    have hqf := hnone f item (.inr ⟨rfl, rfl⟩)
    have hne : q ≠ f := fun heq => hqf (heq ▸ List.prefix_refl _)
    rw [hview, if_neg hne, if_neg hqf]
    exact h.kept q hout fun g i hg => hnone g i (.inl hg)
  parents g i q hg hq hout := by
    obtain hg | ⟨rfl, rfl⟩ := hg
    · exact h.parents g i q hg hq hout
    · -- what is there now was there before, or it leads to another file
      by_cases hother : ∃ g i, made g i ∧ q <+: g
      · obtain ⟨g', i', hg', hq'⟩ := hother
        exact h.parents g' i' q hg' hq' hout
      · rw [← h.kept q hout fun g' i' hg' hq' => hother ⟨g', i', hg', hq'⟩]
        exact hbefore q hq

theorem congr {cleaned' : List String → Prop} {made' : List String → Item → Prop}
    (h : Effect cleaned made v v₁) (hcleaned : ∀ r, cleaned r ↔ cleaned' r)
    (hmade : ∀ f i, made f i ↔ made' f i) : Effect cleaned' made' v v₁ := by
  obtain rfl : cleaned = cleaned' := funext fun r => propext (hcleaned r)
  obtain rfl : made = made' := funext fun f => funext fun i => propext (hmade f i)
  exact h

end Effect

end Effects

/-! ## Steps -/

/-- A file is there, with the directories on the way to where it was wanted. If a directory was
there the file is in it. -/
structure Written (s : Store) (target place : List String) (item : Item) (s' : Store) : Prop where
  plain : s'.root.Plain
  view : ∀ q, s'.at? q = if q = place then some item
    else if q <+: target ∧ q ≠ target then some .dir else s.at? q
  before : ∀ q, q <+: target → q ≠ target → s.at? q = none ∨ s.at? q = some .dir
  within : place = target ∨ target <+: place ∧ s.at? target = some .dir

variable {s s₁ s' : Store} {w w' : Workspace} {config : ValidConfig}

theorem Written.of_made {front place name content executable} (hdirs : DirsMade s front s₁)
    (hfile : FileMade s₁ place content executable s') (hplace : place = front ++ [name] ∨
      front ++ [name] <+: place ∧ s₁.at? (front ++ [name]) = some .dir) :
    Written s (front ++ [name]) place (.file content executable) s' where
  plain := hfile.plain
  view q := by
    have hprefix : q <+: front ++ [name] ∧ q ≠ front ++ [name] ↔ q <+: front := by
      rw [List.prefix_concat_iff]
      constructor
      · rintro ⟨heq | hq, hne⟩
        · exact absurd heq hne
        · exact hq
      · intro hq
        refine ⟨.inr hq, ?_⟩
        rintro rfl
        exact not_concat_above hq
    simp only [hfile.view, hdirs.view, hprefix]
  before q hq hne := hdirs.before q ((List.prefix_concat_iff.1 hq).resolve_left hne)
  within := by
    rwa [hdirs.view, if_neg not_concat_above] at hplace

theorem Written.view_of_apart {target place q item} (h : Written s target place item s')
    (hbelow : ¬ target <+: q) (habove : ¬ q <+: target) : s'.at? q = s.at? q := by
  have hplace : target <+: place := by
    obtain rfl | ⟨hplace, _⟩ := h.within
    · exact List.prefix_refl _
    · exact hplace
  have hne : q ≠ place := fun heq => hbelow (heq ▸ hplace)
  rw [h.view, if_neg hne, if_neg fun hq => habove hq.1]

theorem parent_absolute (front : List String) (name : String) :
    (Path.absolute (front ++ [name])).parent = .absolute front := by
  simp [Path.parent, Path.absolute]

section Steps

variable {front source : List String} {name : String} {u : Unit}

theorem copyTo_ok (hplain : w.store.root.Plain) (hsource : Forward source)
    (hforward : Forward (front ++ [name]))
    (h : Runs (copyTo (.absolute source) (.absolute (front ++ [name]))) w u w') :
    ∃ place content executable, w.store.at? source = some (.file content executable) ∧
      Written w.store (front ++ [name]) place (.file content executable) w'.store := by
  obtain ⟨_, w₁, hmake, hcopy⟩ := runs_bind.1 h
  have hmake := of_runs_alter hmake
  have hcopy := of_runs_alter hcopy
  rw [parent_absolute] at hmake
  have hdirs := makeDirs_ok hplain (forward_append.1 hforward).1 hmake
  obtain ⟨place, content, executable, hfile, hmade, hplace⟩ :=
    copy_ok hdirs.plain hdirs.root hsource hforward hcopy
  refine ⟨place, content, executable, ?_, .of_made hdirs hmade hplace⟩
  rw [hdirs.view] at hfile
  split at hfile
  · cases hfile
  · exact hfile

theorem writeStub_ok {action inputText outputText} (hplain : w.store.root.Plain)
    (hsource : Forward source) (hforward : Forward (front ++ [name]))
    (h : Runs (writeStub config ⟨action, .absolute source, inputText, .absolute (front ++ [name]),
      outputText⟩) w u w') :
    ∃ content executable text stub mode, w.store.at? source = some (.file content executable) ∧
      textOf? content = some text ∧
      (Stub.generate config false (.read inputText) text).outcome = .ok stub ∧
      Written w.store (front ++ [name]) (front ++ [name]) (.file stub.toUTF8 mode) w'.store ∧
      (w.store.at? (front ++ [name]) = none → mode = false) := by
  obtain ⟨text, w₁, hlook, h₁⟩ := runs_bind.1 h
  obtain ⟨hread, rfl⟩ := runs_look.1 hlook
  obtain ⟨content, executable, hfile, htext⟩ := readText_of_ok hplain hsource hread
  obtain ⟨stub, w₂, hgenerate, h₂⟩ := runs_bind.1 h₁
  obtain ⟨hstub, hstore⟩ := of_runs_ofStub hgenerate
  obtain ⟨_, w₃, hmake, hwrite⟩ := runs_bind.1 h₂
  have hmake := of_runs_alter hmake
  have hwrite := of_runs_alter hwrite
  rw [parent_absolute, hstore] at hmake
  have hdirs := makeDirs_ok hplain (forward_append.1 hforward).1 hmake
  obtain ⟨mode, hmade, hmode⟩ := writeText_ok hdirs.plain hdirs.root hforward hwrite
  refine ⟨content, executable, text, stub, mode, hfile, htext, hstub,
    .of_made hdirs hmade (.inl rfl), fun hnone => hmode ?_⟩
  rw [hdirs.view, if_neg not_concat_above, hnone]

theorem clean_ok {e} (hplain : w.store.root.Plain) (hforward : Forward (front ++ [name]))
    (he : e.output = .absolute (front ++ [name])) (h : Runs (clean e) w u w') :
    w'.store.root.Plain ∧
      ∀ q, w'.store.at? q = if front ++ [name] <+: q then none else w.store.at? q := by
  obtain ⟨_, w₁, hsay, hremove⟩ := runs_bind.1 h
  have hremove := of_runs_alter hremove
  rw [store_of_say hsay, he] at hremove
  exact remove_ok hplain hforward hremove

end Steps

end TypeStub.Generation
