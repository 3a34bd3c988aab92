import TypeStub.CommandLine
import TypeStub.Proofs.Config.Reloading
import TypeStub.Proofs.Workspace
/-!
# Which value of a setting counts

A setting is taken from the first of four layers that has it: the command line, the configuration
file, the selected profile, and the default profile. The first two make up a configuration
(`runs_configOf`), and checking it adds the other two (`get_toConfig`). A text that is empty counts
as missing on the command line, and so does an empty profile everywhere.

`settings_precedence`: the value that each setting gets, and when a configuration can be checked.
-/

namespace TypeStub

open TypeStub.Data TypeStub.WorkM

namespace Config

variable {c c' : Config} {f g : Field} {s : Setting} {v : Value} {entries : List (String × Value)}

/-! ## Settings in a file -/

/-- An entry of a data file has the name of a setting and a value for it, or no value. -/
def Fits (entry : String × Value) : Prop :=
  ∃ f, Field.ofKey? entry.1 = some f ∧ (entry.2 = .null ∨ (settingOf? f.kind entry.2).isSome)

def inTable? (entries : List (String × Value)) (f : Field) : Option Setting :=
  (entries.reverse.lookup f.key).bind (settingOf? f.kind)

def settingsTable? (data : List (String × Value)) : Option (List (String × Value)) :=
  match (data.lookup "tool").getD (.table []) with
  | .table tool =>
    match (tool.lookup "dubstub").getD (.table []) with
    | .table entries => some entries
    | _ => none
  | _ => none

theorem key_of_ofKey? {name} (h : Field.ofKey? name = some f) : name = f.key := by
  have := List.find?_some h
  exact (beq_iff_eq.1 this).symm

theorem get_clear_self : (c.clear f).get f = none := by
  cases f <;> rfl

theorem get_clear_ne (hg : g ≠ f) : (c.clear f).get g = c.get g := by
  cases f <;> cases g <;> first | rfl | exact absurd rfl hg

theorem set_null : c.set f.key (Given.ofValue .null) = .ok (c.clear f) := by
  rw [set, fieldNamed, ofKey?_key]
  rfl

theorem set_of_settingOf?_none (hv : v ≠ .null) (h : settingOf? f.kind v = none) :
    c.set f.key (Given.ofValue v) ≠ .ok c' := by
  intro hset
  rw [set, fieldNamed, ofKey?_key] at hset
  cases hkind : f.kind
  all_goals
    rw [hkind] at h
    simp only [bind, Except.bind, hkind] at hset
    cases v <;> first | exact hv rfl | (cases h; done) | cases hset

theorem set_ofValue_ok (h : v = .null ∨ (settingOf? f.kind v).isSome) :
    ∃ c', c.set f.key (Given.ofValue v) = .ok c' := by
  obtain rfl | h := h
  · exact ⟨_, set_null⟩
  · obtain ⟨s, hs⟩ := Option.isSome_iff_exists.1 h
    exact ⟨_, (set_of_settingOf? hs).2⟩

theorem set_ofValue_get (h : c.set f.key (Given.ofValue v) = .ok c') :
    (v = .null ∨ (settingOf? f.kind v).isSome) ∧
      ∀ g, c'.get g = if g = f then settingOf? f.kind v else c.get g := by
  by_cases hnull : v = .null
  · subst hnull
    have hnone : settingOf? f.kind .null = none := by cases f.kind <;> rfl
    obtain rfl := Except.ok.inj (set_null.symm.trans h)
    refine ⟨.inl rfl, fun g => ?_⟩
    split
    · next hg => rw [hg, get_clear_self, hnone]
    · next hg => exact get_clear_ne hg
  cases hsetting : settingOf? f.kind v with
  | none => exact absurd h (set_of_settingOf?_none hnull hsetting)
  | some s =>
    obtain ⟨hkind, hset⟩ := set_of_settingOf? hsetting
    obtain rfl := Except.ok.inj (hset.symm.trans h)
    refine ⟨.inr rfl, fun g => ?_⟩
    split
    · next hg => rw [hg, get_put_self hkind]
    · next hg => exact get_put_ne hkind hg

theorem key_inj : f.key = g.key ↔ f = g := by
  constructor
  · intro h
    exact Option.some.inj (by rw [← ofKey?_key f, ← ofKey?_key g, h])
  · exact congrArg Field.key

/-- What later entries of a table do not set is as an earlier one left it. -/
theorem lookup_reverse_cons (g : Field) :
    ((((f.key, v) :: entries).reverse.lookup g.key).map (settingOf? g.kind)).getD (c.get g)
      = ((entries.reverse.lookup g.key).map (settingOf? g.kind)).getD
        (if g = f then settingOf? f.kind v else c.get g) := by
  have hlookup : ((f.key, v) :: entries).reverse.lookup g.key
      = (entries.reverse.lookup g.key).or (if g = f then some v else none) := by
    rw [List.reverse_cons, List.lookup_append, List.lookup_cons, List.lookup_nil]
    by_cases hg : g = f
    · simp [hg]
    · have hkey : (g.key == f.key) = false := beq_eq_false_iff_ne.2 (mt key_inj.1 hg)
      simp [hg, hkey]
  rw [hlookup]
  cases entries.reverse.lookup g.key with
  | some found => rfl
  | none =>
    split
    · next hg => subst hg; rfl
    · rfl

theorem setAll_ok (h : ∀ entry ∈ entries, Fits entry) (c : Config) :
    ∃ c', c.setAll entries = .ok c' := by
  induction entries generalizing c with
  | nil => exact ⟨c, rfl⟩
  | cons entry rest ih =>
    obtain ⟨⟨f, hf, hfits⟩, hrest⟩ := List.forall_mem_cons.1 h
    obtain ⟨c₁, hset⟩ := set_ofValue_ok (c := c) hfits
    obtain ⟨c', hc'⟩ := ih hrest c₁
    refine ⟨c', ?_⟩
    rw [← key_of_ofKey? hf] at hset
    simp only [setAll, hf, Option.isNone_some, Bool.false_eq_true, if_false, hset]
    exact hc'

theorem setAll_get (h : c.setAll entries = .ok c') : (∀ entry ∈ entries, Fits entry) ∧
    ∀ g, c'.get g = ((entries.reverse.lookup g.key).map (settingOf? g.kind)).getD (c.get g) := by
  induction entries generalizing c with
  | nil =>
    cases h
    exact ⟨by simp, fun g => rfl⟩
  | cons entry rest ih =>
    obtain ⟨name, v⟩ := entry
    rw [setAll] at h
    cases hname : Field.ofKey? name with
    | none =>
      rw [hname] at h
      cases h
    | some f =>
      rw [hname] at h
      obtain ⟨c₁, hset, hrest⟩ := ok_of_bind h
      obtain rfl := key_of_ofKey? hname
      obtain ⟨hfits, hget⟩ := set_ofValue_get hset
      obtain ⟨hfitsRest, hgetRest⟩ := ih hrest
      refine ⟨List.forall_mem_cons.2 ⟨⟨f, hname, hfits⟩, hfitsRest⟩, fun g => ?_⟩
      rw [hgetRest, hget, lookup_reverse_cons]

theorem get_empty : ({} : Config).get f = none := by
  cases f <;> rfl

theorem setAll_empty_iff : ({} : Config).setAll entries = .ok c ↔
    (∀ entry ∈ entries, Fits entry) ∧ ∀ f, c.get f = inTable? entries f := by
  have hget : ∀ {c' : Config}, ({} : Config).setAll entries = .ok c' →
      (∀ entry ∈ entries, Fits entry) ∧ ∀ f, c'.get f = inTable? entries f := by
    intro c' h
    obtain ⟨hfits, hget⟩ := setAll_get h
    refine ⟨hfits, fun f => ?_⟩
    rw [hget, inTable?, get_empty]
    cases entries.reverse.lookup f.key <;> rfl
  refine ⟨hget, ?_⟩
  rintro ⟨hfits, hc⟩
  obtain ⟨c', hc'⟩ := setAll_ok hfits {}
  rw [hc', ext_get fun f => ((hget hc').2 f).trans (hc f).symm]

theorem ofValue_iff {data} : ofValue (.table data) = .ok c ↔
    ∃ entries, settingsTable? data = some entries ∧ (∀ entry ∈ entries, Fits entry) ∧
      ∀ f, c.get f = inTable? entries f := by
  simp only [← setAll_empty_iff, ofValue, settingsTable?, member, bind, Except.bind]
  generalize (data.lookup "tool").getD (.table []) = tool
  cases tool with
  | table tool =>
    dsimp only
    generalize (tool.lookup "dubstub").getD (.table []) = settings
    cases settings with
    | table entries => simp
    | null | bool | int | float | str | moment | list => simp [throw, throwThe, MonadExceptOf.throw]
  | null | bool | int | float | str | moment | list => simp

end Config

/-! ## Settings on the command line -/

namespace CommandLine

open TypeStub.Config (Field Setting)

variable {given : Given} {w w' : Workspace} {c : Config} {f : Field}

def Given.setting? (given : Given) (f : Field) : Option Setting :=
  (given.value? (optionName f)).bind fun text =>
    if text = "" then none else Config.settingOf? f.kind (.str text)

theorem setOption_ok (given : Given) (c : Config) (hf : f.kind ≠ .commands) :
    ∃ c', setOption given c f = .ok c' ∧
      ∀ g, c'.get g = (if g = f then given.setting? f else none).or (c.get g) := by
  unfold setOption Given.setting?
  cases given.value? (optionName f) with
  | none => exact ⟨c, rfl, by simp⟩
  | some text =>
    by_cases htext : text = ""
    · exact ⟨c, by simp [htext], by simp [htext]⟩
    · obtain ⟨s, hs⟩ : ∃ s, Config.settingOf? f.kind (.str text) = some s := by
        cases hkind : f.kind with
        | text | filter => exact ⟨_, rfl⟩
        | commands => exact absurd hkind hf
      obtain ⟨c', hset⟩ := Config.set_ofValue_ok (c := c) (.inr (Option.isSome_of_eq_some hs))
      refine ⟨c', ?_, fun g => ?_⟩
      · simpa [htext, String.isEmpty_iff, Config.Given.ofValue] using hset
      · rw [(Config.set_ofValue_get hset).2 g]
        by_cases hg : g = f <;> simp [hg, htext, hs]

theorem foldlM_setOption (given : Given) {fs : List Field}
    (hfs : ∀ f ∈ fs, f.kind ≠ .commands)
    (c : Config) : ∃ c', fs.foldlM (setOption given) c = .ok c' ∧
      ∀ g, c'.get g = (if g ∈ fs then given.setting? g else none).or (c.get g) := by
  induction fs generalizing c with
  | nil => exact ⟨c, rfl, by simp⟩
  | cons f fs ih =>
    obtain ⟨hf, hfs⟩ := List.forall_mem_cons.1 hfs
    obtain ⟨c₁, hc₁, hget₁⟩ := setOption_ok given c hf
    obtain ⟨c', hc', hget'⟩ := ih hfs c₁
    refine ⟨c', by rw [List.foldlM_cons, hc₁]; exact hc', fun g => ?_⟩
    rw [hget', hget₁]
    by_cases hg : g = f
    · subst hg
      by_cases hmem : g ∈ fs <;> cases given.setting? g <;> simp [hmem]
    · simp [hg]

theorem withOptions_ok (given : Given) (c : Config) :
    ∃ c', withOptions given c = .ok c' ∧ ∀ f, c'.get f = (given.setting? f).or (c.get f) := by
  have hfields : ∀ f ∈ optionFields, f.kind ≠ .commands := fun f hf => by
    simpa using (List.mem_filter.1 hf).2
  obtain ⟨c', hc', hget⟩ := foldlM_setOption given hfields c
  refine ⟨c', hc', fun f => ?_⟩
  rw [hget]
  by_cases hkind : f.kind = .commands
  · have hnone : given.setting? f = none := by
      rw [Given.setting?, hkind]
      cases given.value? (optionName f) <;> simp [Config.settingOf?]
    simp [hnone]
  · have hmem : f ∈ optionFields :=
      List.mem_filter.2 ⟨by cases f <;> decide, by simpa using hkind⟩
    rw [if_pos hmem]

/-- The settings in the configuration file; there are none if no file is given. -/
inductive InFile (given : Given) (w : Workspace) : List (String × Value) → Prop
  | none : path? given "--config" = none → InFile given w []
  | file {path : Path} {text : List Char} {data entries : List (String × Value)} :
    path? given "--config" = some path → w.store.readText path = .ok text →
    Toml.read? text = some data → Config.settingsTable? data = some entries →
    InFile given w entries

theorem runs_readConfig {path} : Runs (readConfig path) w c w' ↔ w' = w ∧
    ∃ text data, w.store.readText path = .ok text ∧ Toml.read? text = some data ∧
      Config.ofValue (.table data) = .ok c := by
  simp only [readConfig, runs_bind, runs_look, runs_ofExcept]
  constructor
  · rintro ⟨text, _, ⟨htext, rfl⟩, htoml, rfl⟩
    unfold Config.ofToml at htoml
    split at htoml
    · next data hdata => exact ⟨rfl, text, data, htext, hdata, htoml⟩
    · cases htoml
  · rintro ⟨rfl, text, data, htext, hdata, hvalue⟩
    refine ⟨text, w', ⟨htext, rfl⟩, ?_, rfl⟩
    rw [Config.ofToml, hdata]
    exact hvalue

theorem runs_fileConfig : Runs (fileConfig given) w c w' ↔ w' = w ∧ ∃ entries,
    InFile given w entries ∧
    (∀ entry ∈ entries, Config.Fits entry) ∧ ∀ f, c.get f = Config.inTable? entries f := by
  unfold fileConfig
  cases hpath : path? given "--config" with
  | none =>
    rw [runs_pure]
    constructor
    · rintro ⟨rfl, rfl⟩
      exact ⟨rfl, [], .none hpath, by simp, fun _ => Config.get_empty⟩
    · rintro ⟨rfl, entries, hfile, -, hget⟩
      cases hfile with
      | none => exact ⟨Config.ext_get fun f => (hget f).trans Config.get_empty.symm, rfl⟩
      | file hpath' => cases hpath.symm.trans hpath'
  | some path =>
    simp only [runs_readConfig, Config.ofValue_iff]
    refine and_congr_right fun _ => ⟨?_, ?_⟩
    · rintro ⟨text, data, htext, hdata, entries, hentries, hload⟩
      exact ⟨entries, .file hpath htext hdata hentries, hload⟩
    · rintro ⟨entries, hfile, hload⟩
      cases hfile with
      | none hnone => cases hpath.symm.trans hnone
      | file hpath' htext hdata hentries =>
        cases hpath.symm.trans hpath'
        exact ⟨_, _, htext, hdata, entries, hentries, hload⟩

theorem runs_configOf : Runs (configOf given) w c w' ↔ w' = w ∧ ∃ entries,
    InFile given w entries ∧ (∀ entry ∈ entries, Config.Fits entry) ∧
    ∀ f, c.get f = (given.setting? f).or (Config.inTable? entries f) := by
  simp only [configOf, runs_bind, runs_fileConfig, runs_ofExcept]
  constructor
  · rintro ⟨base, _, ⟨rfl, entries, hfile, hfits, hbase⟩, hoptions, rfl⟩
    obtain ⟨c', hc', hget⟩ := withOptions_ok given base
    obtain rfl := Except.ok.inj (hc'.symm.trans hoptions)
    exact ⟨rfl, entries, hfile, hfits, fun f => by rw [hget, hbase]⟩
  · rintro ⟨rfl, entries, hfile, hfits, hc⟩
    obtain ⟨base, hload⟩ := Config.setAll_ok hfits {}
    have hbase := (Config.setAll_empty_iff.1 hload).2
    obtain ⟨c', hc', hget⟩ := withOptions_ok given base
    refine ⟨base, w', ⟨rfl, entries, hfile, hfits, hbase⟩, ?_, rfl⟩
    have heq : c' = c := Config.ext_get fun f => by rw [hget, hbase, hc]
    rw [hc', heq]

end CommandLine

/-! ## Settings of profiles -/

namespace Config

section Profiles

variable {α β : Type} {c : Config} {v : ValidConfig} {f : Field} {p : String}
  {setting : Config → Option α} {x : α}

def layered (c : Config) (p : String) (setting : Config → Option α) : Option α :=
  (setting c).or (((profileNamed? p).bind fun q =>
    setting q.config).or (setting defaultProfile.config))

def chosen (c : Config) (f : Field) : Option Setting :=
  c.layered c.profileName (·.get f)

theorem resolve_iff : c.resolve p setting = .ok x ↔
    ((profileNamed? p).isSome ∨ (setting c).isSome) ∧ c.layered p setting = some x := by
  unfold resolve layered
  cases setting c with
  | some own => simp
  | none =>
    cases profileNamed? p with
    | none => simp
    | some q => cases hq : setting q.config <;> cases setting defaultProfile.config <;> simp [hq]

theorem layered_map (k : α → β) :
    c.layered p (fun c => (setting c).map k) = (c.layered p setting).map k := by
  simp only [layered, Option.map_or, Option.map_bind, Function.comp_def]

theorem default_complete (hf : f ≠ .profile) : (defaultProfile.config.get f).isSome := by
  cases f <;> first | rfl | exact absurd rfl hf

theorem resolve_of_known {k : α → Setting} (hget : ∀ c : Config, c.get f = (setting c).map k)
    (hf : f ≠ .profile) (h : (profileNamed? c.profileName).isSome ∨ (c.get f).isSome) :
    ∃ x, c.resolve c.profileName setting = .ok x ∧ c.chosen f = some (k x) := by
  have hchosen : c.chosen f = (c.layered c.profileName setting).map k := by
    simp only [chosen, hget, layered_map]
  have hdefault := default_complete hf
  rw [hget, Option.isSome_map] at hdefault h
  obtain ⟨x, hx⟩ : ∃ x, c.layered c.profileName setting = some x := by
    rw [← Option.isSome_iff_exists, layered, Option.isSome_or, Option.isSome_or, hdefault]
    simp
  exact ⟨x, resolve_iff.2 ⟨h, hx⟩, by rw [hchosen, hx]; rfl⟩

theorem chosen_of_resolve {k : α → Setting} (hget : ∀ c : Config, c.get f = (setting c).map k)
    (h : c.resolve c.profileName setting = .ok x) :
    ((profileNamed? c.profileName).isSome ∨ (c.get f).isSome) ∧ c.chosen f = some (k x) := by
  obtain ⟨hknown, hx⟩ := resolve_iff.1 h
  simp only [chosen, hget, layered_map, hx, Option.isSome_map, Option.map_some]
  exact ⟨hknown, trivial⟩

theorem get_filterText (hf : f.kind = .filter) (c : Config) :
    c.get f = (c.filterText f).map .filter := by
  cases f <;> first | rfl | cases hf

theorem exists_filter? (hf : f.kind = .filter) (v : ValidConfig) : ∃ x, v.filter? f = some x := by
  cases f <;> first | exact ⟨_, rfl⟩ | cases hf

theorem get_toConfig_filter {x} (h : v.filter? f = some x) :
    v.toConfig.get f = some (.filter x.raw) := by
  cases f <;> cases h <;> rfl

theorem get_toConfig (h : c.Checks v) (hf : f ≠ .profile) :
    ((profileNamed? c.profileName).isSome ∨ (c.get f).isSome) ∧
    c.chosen f = v.toConfig.get f := by
  cases hkind : f.kind with
  | text =>
    obtain rfl : f = .pythonVersion := by
      cases f <;> first | rfl | exact absurd rfl hf | cases hkind
    exact chosen_of_resolve (fun _ => rfl) (h.profile ▸ h.pythonVersion)
  | filter =>
    obtain ⟨x, hx⟩ := exists_filter? hkind v
    rw [get_toConfig_filter hx]
    have hresolve := (resolveFilter_ok (h.filters f x hx)).1
    exact chosen_of_resolve (get_filterText hkind) (h.profile ▸ hresolve)
  | commands =>
    obtain rfl : f = .formatterCmds := by cases f <;> first | rfl | cases hkind
    exact chosen_of_resolve (fun _ => rfl) (h.profile ▸ h.commands)

/-! ## Configurations that can be checked -/

/-- A version is `auto`, or two numbers with a point between them. -/
def IsVersion (text : String) : Prop :=
  text = "auto" ∨ ∃ major minor m n, text.toList = major ++ '.' :: minor ∧ '.' ∉ major ∧
    '.' ∉ minor ∧ Text.readInteger major = .ok m ∧ Text.readInteger minor = .ok n

theorem versionPart_eq_ok {part n} :
    versionPart part = .ok n ↔ Text.readInteger part = .ok n := by
  unfold versionPart
  split <;> simp [*]

theorem readVersion_iff {text} : (∃ n, readVersion text = .ok n) ↔ IsVersion text := by
  unfold readVersion IsVersion
  constructor
  · rintro ⟨n, h⟩
    split at h
    · next hauto => exact .inl (beq_iff_eq.1 hauto)
    · split at h
      · next major minor hsplit =>
        obtain ⟨htext, hmajor, hminor⟩ := Text.splitAt_eq_pair.1 hsplit
        obtain ⟨a, ha, h⟩ := ok_of_bind h
        obtain ⟨b, hb, -⟩ := ok_of_bind h
        exact .inr ⟨major, minor, a, b, htext, hmajor, hminor, versionPart_eq_ok.1 ha,
          versionPart_eq_ok.1 hb⟩
      · cases h
  · rintro (hauto | ⟨major, minor, a, b, htext, hmajor, hminor, ha, hb⟩)
    · exact ⟨_, if_pos (beq_iff_eq.2 hauto)⟩
    · rw [Text.splitAt_eq_pair.2 ⟨htext, hmajor, hminor⟩]
      split
      · exact ⟨_, rfl⟩
      · simp only [versionPart_eq_ok.2 ha, versionPart_eq_ok.2 hb, bind, Except.bind]
        exact ⟨_, rfl⟩

/-- The profile is known unless it is not needed, and the values that are chosen can be read. -/
structure Acceptable (c : Config) : Prop where
  profile : (profileNamed? c.profileName).isSome ∨ ∀ f, f ≠ .profile → (c.get f).isSome
  filters : ∀ f text, c.chosen f = some (.filter text) → ∃ x, Filter.read text = .ok x
  version : ∀ text, c.chosen .pythonVersion = some (.text text) → IsVersion text

theorem kind_of_chosen {s} (h : c.chosen f = some s) : s.kind = f.kind := by
  simp only [chosen, layered, Option.or_eq_some_iff, Option.bind_eq_some_iff] at h
  obtain h | ⟨-, ⟨_, _, h⟩ | ⟨-, h⟩⟩ := h <;> exact kind_of_get h

theorem Checks.acceptable (h : c.Checks v) : c.Acceptable where
  profile := by
    by_cases hknown : (profileNamed? c.profileName).isSome
    · exact .inl hknown
    · exact .inr fun f hf => (get_toConfig h hf).1.resolve_left hknown
  filters f text hchosen := by
    have hkind := kind_of_chosen hchosen
    have hf : f ≠ .profile := by
      rintro rfl
      cases hkind
    obtain ⟨x, hx⟩ := exists_filter? hkind.symm v
    rw [(get_toConfig h hf).2, get_toConfig_filter hx] at hchosen
    cases hchosen
    exact ⟨x, (resolveFilter_ok (h.filters f x hx)).2⟩
  version text hchosen := by
    rw [(get_toConfig h (by decide)).2] at hchosen
    cases hchosen
    exact readVersion_iff.1 ⟨_, h.version⟩

theorem Acceptable.known (h : c.Acceptable) (hf : f ≠ .profile) :
    (profileNamed? c.profileName).isSome ∨ (c.get f).isSome :=
  h.profile.imp_right fun hall => hall f hf

theorem Acceptable.exists_filter (h : c.Acceptable) (hf : f.kind = .filter) :
    ∃ x, c.resolveFilter c.profileName (filterText f) = .ok x := by
  have hne : f ≠ .profile := by
    rintro rfl
    cases hf
  obtain ⟨text, htext, hchosen⟩ := resolve_of_known (get_filterText hf) hne (h.known hne)
  obtain ⟨x, hx⟩ := h.filters f text hchosen
  refine ⟨x, ?_⟩
  simp only [resolveFilter, htext, bind, Except.bind, hx]
  rfl

theorem Acceptable.validate_ok (h : c.Acceptable) : ∃ v, c.validate = .ok v := by
  have hgetVersion (c : Config) : c.get .pythonVersion = c.pythonVersion.map .text := rfl
  have hgetCommands (c : Config) : c.get .formatterCmds = c.formatterCmds.map .commands := rfl
  obtain ⟨text, htext, hchosen⟩ :=
    resolve_of_known hgetVersion (by decide) (h.known (by decide))
  obtain ⟨version, hversion⟩ := readVersion_iff.2 (h.version text hchosen)
  obtain ⟨commands, hcommands, -⟩ :=
    resolve_of_known hgetCommands (by decide) (h.known (by decide))
  obtain ⟨x₁, h₁⟩ := h.exists_filter (f := .keepDefinitions) rfl
  obtain ⟨x₂, h₂⟩ := h.exists_filter (f := .keepTrailingDocstrings) rfl
  obtain ⟨x₃, h₃⟩ := h.exists_filter (f := .addImplicitNoneReturn) rfl
  obtain ⟨x₄, h₄⟩ := h.exists_filter (f := .keepIfStatements) rfl
  obtain ⟨x₅, h₅⟩ := h.exists_filter (f := .flattenIf) rfl
  obtain ⟨x₆, h₆⟩ := h.exists_filter (f := .addRedundantEllipsis) rfl
  obtain ⟨x₇, h₇⟩ := h.exists_filter (f := .keepVariableValue) rfl
  obtain ⟨x₈, h₈⟩ := h.exists_filter (f := .keepUnusedImports) rfl
  obtain ⟨x₉, h₉⟩ := h.exists_filter (f := .format) rfl
  refine ⟨⟨c.profileName, text, version, x₁, x₂, x₃, x₄, x₅, x₆, x₇, x₈,
    x₉, commands⟩, validate_of_checks ⟨rfl, htext, hversion, fun f x hx => ?_, hcommands⟩⟩
  cases f <;> cases hx <;> assumption

theorem validate_iff : (∃ v, c.validate = .ok v) ↔ c.Acceptable :=
  ⟨fun ⟨_, h⟩ => (checks_of_validate h).acceptable, Acceptable.validate_ok⟩

end Profiles

end Config

/-! ## Looking up filters -/

namespace ValidConfig

variable {v : ValidConfig} {c : Config} {f : Config.Field} {x : Filter} {l kept : List Filter}

/-- A filter that is left out has the text of one that is found before it. -/
theorem find?_keepNew (raw : FilterText) :
    (l.foldl keepNew kept).find? (·.raw == raw) = (kept ++ l).find? (·.raw == raw) := by
  induction l generalizing kept with
  | nil => rw [List.foldl_nil, List.append_nil]
  | cons first rest ih =>
    rw [List.foldl_cons, ih, keepNew]
    split
    · next hany =>
      obtain ⟨z, hz, hraw⟩ := List.any_eq_true.1 hany
      rw [List.find?_append, List.find?_append, List.find?_cons]
      split
      · next hfirst =>
        have hfound : (kept.find? (·.raw == raw)).isSome :=
          List.find?_isSome.2 ⟨z, hz, by rw [beq_iff_eq.1 hraw, hfirst]⟩
        rw [Option.or_of_isSome hfound, Option.or_of_isSome hfound]
      · rfl
    · rw [List.append_assoc, List.singleton_append]

theorem mem_every : x ∈ v.every ↔ ∃ f, v.filter? f = some x := by
  constructor
  · intro h
    simp only [every, List.mem_cons, List.not_mem_nil, or_false] at h
    obtain rfl | rfl | rfl | rfl | rfl | rfl | rfl | rfl | rfl := h
    exacts [⟨.keepDefinitions, rfl⟩, ⟨.keepTrailingDocstrings, rfl⟩,
      ⟨.addImplicitNoneReturn, rfl⟩,
      ⟨.keepIfStatements, rfl⟩, ⟨.flattenIf, rfl⟩, ⟨.addRedundantEllipsis, rfl⟩,
      ⟨.keepVariableValue, rfl⟩, ⟨.keepUnusedImports, rfl⟩, ⟨.format, rfl⟩]
  · rintro ⟨f, hf⟩
    cases f <;> cases hf <;> simp [every]

theorem filterOf?_eq (h : c.Checks v) (hx : v.filter? f = some x) : v.filterOf? x.raw = some x := by
  have hfind : v.filterOf? x.raw = v.every.find? (·.raw == x.raw) := find?_keepNew x.raw
  have hsome : (v.every.find? (·.raw == x.raw)).isSome :=
    List.find?_isSome.2 ⟨x, mem_every.2 ⟨f, hx⟩, beq_self_eq_true _⟩
  obtain ⟨y, hy⟩ := Option.isSome_iff_exists.1 hsome
  have hraw : y.raw = x.raw := by simpa using List.find?_some hy
  obtain ⟨g, hg⟩ := mem_every.1 (List.mem_of_find?_eq_some hy)
  have hread := (filter?_read h hg).1
  rw [hraw, (filter?_read h hx).1] at hread
  rw [hfind, hy, Except.ok.inj hread]

theorem exists_get_toConfig (v : ValidConfig) (f : Config.Field) :
    ∃ s, v.toConfig.get f = some s := by
  cases f <;> exact ⟨_, rfl⟩

end ValidConfig

/-! ## All layers -/

namespace CommandLine

open TypeStub.Config (Field Setting)

variable {given : Given} {entries : List (String × Value)} {c : Config}

def nonEmpty? : Setting → Option String
  | .text t => if t = "" then none else some t
  | .filter _ | .commands _ => none

def selected (given : Given) (entries : List (String × Value)) : String :=
  (((given.setting? .profile).bind nonEmpty?).or
    ((Config.inTable? entries .profile).bind nonEmpty?)).getD "default"

def settled (given : Given) (entries : List (String × Value)) (f : Field) : Option Setting :=
  if f = .profile then some (.text (selected given entries))
  else (given.setting? f).or ((Config.inTable? entries f).or
    (((Config.profileNamed? (selected given entries)).bind fun p => p.config.get f).or
      (Config.defaultProfile.config.get f)))

theorem profileName_eq (c : Config) :
    c.profileName = ((c.get .profile).bind nonEmpty?).getD "default" := by
  unfold Config.profileName Config.get
  split
  · next h => simp [h]
  · next h => simp [h, nonEmpty?]
  · next name hname h => simp [h, nonEmpty?, show ¬ name = "" from hname]

theorem profileName_eq_selected
    (h : ∀ f, c.get f = (given.setting? f).or (Config.inTable? entries f)) :
    c.profileName = selected given entries := by
  rw [profileName_eq, selected, h .profile, Given.setting?]
  cases given.value? (optionName .profile) with
  | none => rfl
  | some text =>
    by_cases htext : text = ""
    · simp [htext]
    · simp [htext, Config.settingOf?, Field.kind, nonEmpty?]

theorem chosen_eq_settled {f} (hf : f ≠ .profile)
    (h : ∀ f, c.get f = (given.setting? f).or (Config.inTable? entries f)) :
    c.chosen f = settled given entries f := by
  rw [settled, if_neg hf, ← profileName_eq_selected h, Config.chosen, Config.layered, h,
    Option.or_assoc]

/-- **Which value of a setting counts.** With a configuration file whose entries fit, or without
one, the command line gives a configuration, and checking it settles every setting on the first
layer that has it. A configuration, however it was made, can be checked if and only if its profile
is known or not needed, its filters can be read and its version is one. If so, each setting has a
value, and the filter of each is the one that is read from this value. -/
theorem settings_precedence :
    (∀ (given : Given) (w : Workspace) entries, InFile given w entries →
      (∀ entry ∈ entries, Config.Fits entry) →
      ∃ c, Runs (configOf given) w c w ∧
        ∀ v, c.validate = .ok v → ∀ f, v.toConfig.get f = settled given entries f) ∧
    (∀ c : Config, (∃ v, c.validate = .ok v) ↔ c.Acceptable) ∧
    ∀ (c : Config) v, c.validate = .ok v → ∀ f, ∃ s, v.toConfig.get f = some s ∧
      ∀ text, s = .filter text → ∃ x, v.filterOf? text = some x ∧
      Filter.read text = .ok x := by
  refine ⟨fun given w entries hfile hfits => ?_, fun c => Config.validate_iff, fun c v hv f =>
    ?_⟩
  · obtain ⟨base, hload⟩ := Config.setAll_ok hfits {}
    obtain ⟨c, -, hoptions⟩ := withOptions_ok given base
    have hget : ∀ f, c.get f = (given.setting? f).or (Config.inTable? entries f) := fun f => by
      rw [hoptions, (Config.setAll_empty_iff.1 hload).2]
    refine ⟨c, runs_configOf.2 ⟨rfl, entries, hfile, hfits, hget⟩, fun v hv f => ?_⟩
    have hchecks := Config.checks_of_validate hv
    by_cases hf : f = .profile
    · rw [settled, if_pos hf, hf, ← profileName_eq_selected hget, ← hchecks.profile]
      rfl
    · rw [← chosen_eq_settled hf hget, (Config.get_toConfig hchecks hf).2]
  · have hchecks := Config.checks_of_validate hv
    obtain ⟨s, hs⟩ := v.exists_get_toConfig f
    refine ⟨s, hs, ?_⟩
    rintro text rfl
    obtain ⟨x, hx⟩ := Config.exists_filter? (Config.kind_of_get hs).symm v
    rw [Config.get_toConfig_filter hx] at hs
    cases hs
    exact ⟨x, ValidConfig.filterOf?_eq hchecks hx, (ValidConfig.filter?_read hchecks hx).1⟩

/-! A command line with an empty profile, a version and some filters, and a file with a profile and
another version. -/

def sampleLine : Given where
  entries := [("--config", "conf.toml"), ("--profile", ""), ("--python_version", "3.9"),
    ("--keep_definitions", "True"), ("--add_implicit_none_return", "True"),
    ("--flatten_if", "True"), ("--keep_variable_value", "True")]

def sampleFile : String :=
  "[tool.dubstub]\nprofile = \"pyright\"\npython_version = \"3.8\"\n"

def sampleWorkspace : Workspace where
  store := ⟨.dir [("conf.toml", .file sampleFile.toUTF8 false)], []⟩
  scratch := .absolute ["tmp"]
  interpreter := ""

theorem settings_precedence_on_sample :
    ∃ entries c v, InFile sampleLine sampleWorkspace entries ∧
      (∀ entry ∈ entries, Config.Fits entry) ∧
      Runs (configOf sampleLine) sampleWorkspace c sampleWorkspace ∧ c.validate = .ok v ∧
      c.Acceptable ∧ v.profile = "pyright" ∧ v.pythonVersion = "3.9" ∧
      ∀ f, v.toConfig.get f = settled sampleLine entries f ∧
        ∃ s, v.toConfig.get f = some s ∧
          ∀ text, s = .filter text → ∃ x, v.filterOf? text = some x ∧
          Filter.read text = .ok x := by
  obtain ⟨hsettled, hiff, hcomplete⟩ := settings_precedence
  have hsample : ((configOf sampleLine).run.run sampleWorkspace).1.toOption.any (fun c =>
      c.validate.toOption.any fun v =>
        v.profile = "pyright" && v.pythonVersion = "3.9") = true := by
    decide +kernel
  obtain ⟨c, _, hrun, hvalid⟩ := any_run_iff.1 hsample
  simp only [any_toOption_iff, Bool.and_eq_true, decide_eq_true_eq] at hvalid
  obtain ⟨v, hv, hvalues⟩ := hvalid
  obtain ⟨rfl, entries, hfile, hfits, -⟩ := runs_configOf.1 hrun
  obtain ⟨c', hrun', hget⟩ := hsettled sampleLine sampleWorkspace entries hfile hfits
  obtain rfl : c' = c := Except.ok.inj (congrArg Prod.fst (hrun'.symm.trans hrun))
  exact ⟨entries, c', v, hfile, hfits, hrun, hv, (hiff c').1 ⟨v, hv⟩, hvalues.1, hvalues.2,
    fun f => ⟨hget v hv f, hcomplete c' v hv f⟩⟩

def emptyProfile : Config :=
  { Config.sampleConfig "True" with profile := some "" }

/-- There is no profile with an empty name, but nothing is missing where it is selected. -/
theorem validate_emptyProfile : Config.profileNamed? "" = none ∧
    emptyProfile.get .pythonVersion = none ∧ ∃ v, emptyProfile.validate = .ok v := by
  have hok : emptyProfile.validate.toOption.any (fun _ => true) = true := by decide +kernel
  obtain ⟨v, hv, -⟩ := any_toOption_iff.1 hok
  exact ⟨by decide +kernel, rfl, v, hv⟩

end CommandLine

end TypeStub
