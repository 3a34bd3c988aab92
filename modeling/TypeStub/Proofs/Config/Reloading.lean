import TypeStub.Config.Show
import TypeStub.Config.Valid
import TypeStub.Proofs.Filter.Reindenting
import TypeStub.Proofs.Results
/-!
# Showing a configuration and loading it

A checked configuration that is shown as TOML and loaded again is checked with the same outcome,
except that formatter commands come back as plain tables. The lines of its filters are indented anew
on the way, so this holds of filters for which that makes no difference (`reload_keeps_meaning`).
The filters of all profiles are of this kind.
-/

namespace TypeStub

open TypeStub.Data TypeStub.Syntax

/-! ## What comes back -/

def FilterText.reloaded : FilterText → FilterText
  | .flag b => .flag b
  | .expr text =>
    if text == "True" then .flag true
    else if text == "False" then .flag false
    else .expr (String.ofList (Text.reindented text.toList))

def FilterText.isIndentable : FilterText → Bool
  | .flag _ => true
  | .expr text => Syntax.isIndentable Filter.dialect text.toList

/-- An item of the list of formatter commands once it was shown and loaded: a table, not a command.
-/
def CommandEntry.reloaded : CommandEntry → CommandEntry
  | .command cmd =>
    .other (.table [("name", .str cmd.name), ("cmdline", .list (cmd.cmdline.map .str))])
  | .other value => .other value

namespace Config

def Setting.reloaded : Setting → Setting
  | .text s => .text s
  | .filter t => .filter t.reloaded
  | .commands entries => .commands (entries.map CommandEntry.reloaded)

def reloaded (c : Config) : Config :=
  { c with
    keepDefinitions := c.keepDefinitions.map FilterText.reloaded
    keepTrailingDocstrings := c.keepTrailingDocstrings.map FilterText.reloaded
    addImplicitNoneReturn := c.addImplicitNoneReturn.map FilterText.reloaded
    keepIfStatements := c.keepIfStatements.map FilterText.reloaded
    flattenIf := c.flattenIf.map FilterText.reloaded
    addRedundantEllipsis := c.addRedundantEllipsis.map FilterText.reloaded
    keepVariableValue := c.keepVariableValue.map FilterText.reloaded
    keepUnusedImports := c.keepUnusedImports.map FilterText.reloaded
    format := c.format.map FilterText.reloaded
    formatterCmds := c.formatterCmds.map (·.map CommandEntry.reloaded) }

/-! ## Settings by name -/

def Setting.kind : Setting → FieldKind
  | .text _ => .text
  | .filter _ => .filter
  | .commands _ => .commands

def put (c : Config) (f : Field) : Setting → Config
  | .text s => c.putText f (some s)
  | .filter text => c.putFilter f (some text)
  | .commands entries => { c with formatterCmds := some entries }

variable {a b c : Config} {f g : Field} {s : Setting}

theorem Setting.reloaded_kind (s : Setting) : s.reloaded.kind = s.kind := by
  cases s <;> rfl

theorem kind_of_get (h : c.get f = some s) : s.kind = f.kind := by
  cases f <;> obtain ⟨_, _, rfl⟩ := Option.map_eq_some_iff.1 h <;> rfl

theorem get_put_self (h : s.kind = f.kind) : (c.put f s).get f = some s := by
  cases s <;> cases f <;> first | rfl | cases h

theorem get_put_ne (h : s.kind = f.kind) (hg : g ≠ f) : (c.put f s).get g = c.get g := by
  cases s <;> cases f <;> first | (cases g <;> first | rfl | exact absurd rfl hg) | cases h

theorem ext_get (h : ∀ f, a.get f = b.get f) : a = b := by
  have htext {x y : Option String} (hxy : x.map Setting.text = y.map .text) : x = y :=
    Option.map_injective (fun _ _ => Setting.text.inj) hxy
  have hfilter {x y : Option FilterText} (hxy : x.map Setting.filter = y.map .filter) : x = y :=
    Option.map_injective (fun _ _ => Setting.filter.inj) hxy
  have hcommands {x y : Option (List CommandEntry)}
      (hxy : x.map Setting.commands = y.map .commands) : x = y :=
    Option.map_injective (fun _ _ => Setting.commands.inj) hxy
  obtain ⟨_, _, _, _, _, _, _, _, _, _, _, _⟩ := a
  obtain ⟨_, _, _, _, _, _, _, _, _, _, _, _⟩ := b
  rw [mk.injEq]
  exact ⟨htext (h .profile), htext (h .pythonVersion), hfilter (h .keepDefinitions),
    hfilter (h .keepTrailingDocstrings), hfilter (h .addImplicitNoneReturn),
    hfilter (h .keepIfStatements), hfilter (h .flattenIf), hfilter (h .addRedundantEllipsis),
    hfilter (h .keepVariableValue), hfilter (h .keepUnusedImports), hfilter (h .format),
    hcommands (h .formatterCmds)⟩

theorem get_reloaded (c : Config) (f : Field) :
    c.reloaded.get f = (c.get f).map Setting.reloaded := by
  cases f <;> simp [get, reloaded, Function.comp_def, Setting.reloaded]

theorem ofKey?_key (f : Field) : Field.ofKey? f.key = some f := by
  cases f <;> decide

/-! ## Loading -/

def settingOf? : FieldKind → Value → Option Setting
  | .text, .str t => some (.text t)
  | .filter, .str t => some (.filter (.expr t))
  | .filter, .bool b => some (.filter (.flag b))
  | .commands, .list items => some (.commands (items.map .other))
  | _, _ => none

theorem set_of_settingOf? {v} (h : settingOf? f.kind v = some s) :
    s.kind = f.kind ∧ c.set f.key (Given.ofValue v) = .ok (c.put f s) := by
  rw [set, fieldNamed, ofKey?_key]
  simp only [bind, Except.bind]
  cases hkind : f.kind
  all_goals
    rw [hkind] at h
    cases v <;> cases h <;> exact ⟨rfl, rfl⟩

theorem commandValue_reloaded {e : CommandEntry} {v} (h : commandValue e = .ok v) :
    e.reloaded = .other v := by
  cases e with
  | command cmd =>
    cases h
    rfl
  | other _ => cases h

theorem mapM_commandValue {entries : List CommandEntry} {items : List Value}
    (h : entries.mapM commandValue = .ok items) :
    entries.map CommandEntry.reloaded = items.map .other := by
  induction entries generalizing items with
  | nil =>
    cases h
    rfl
  | cons e entries ih =>
    rw [List.mapM_cons] at h
    obtain ⟨v, hv, h⟩ := ok_of_bind h
    obtain ⟨more, hmore, h⟩ := ok_of_bind h
    cases h
    rw [List.map_cons, List.map_cons, commandValue_reloaded hv, ih hmore]

theorem settingOf?_filterValue (t : FilterText) :
    settingOf? .filter (filterValue true t) = some (.filter t.reloaded) := by
  cases t with
  | flag b => rfl
  | expr text =>
    simp only [filterValue, FilterText.reloaded]
    split
    · rfl
    · split <;> rfl

/-- The step: a setting that is shown is loaded as it comes back. -/
theorem set_shown {value} (hkind : s.kind = f.kind) (h : settingValue true s = .ok value) :
    c.set f.key (Given.ofValue value) = .ok (c.put f s.reloaded) := by
  refine (set_of_settingOf? ?_).2
  rw [← hkind]
  cases s with
  | text t =>
    cases h
    rfl
  | filter t =>
    cases h
    exact settingOf?_filterValue t
  | commands entries =>
    obtain ⟨items, hitems, h⟩ := ok_of_bind h
    cases h
    rw [Setting.reloaded, mapM_commandValue hitems]
    rfl

theorem setAll_append (a : Config) (l m : List (String × Value)) :
    a.setAll (l ++ m) = a.setAll l >>= (·.setAll m) := by
  induction l generalizing a with
  | nil => rfl
  | cons entry l ih =>
    rw [List.cons_append, setAll, setAll]
    split
    · rfl
    · cases a.set entry.1 (Given.ofValue entry.2) with
      | error e => rfl
      | ok a' => exact ih a'

theorem setAll_shownSetting (a : Config) {l} (h : c.shownSetting true f = .ok l) :
    ∃ a', a.setAll l = .ok a' ∧
      ∀ g, a'.get g = (if g = f then (c.get f).map Setting.reloaded else none).or (a.get g) := by
  unfold shownSetting at h
  cases hget : c.get f with
  | none =>
    rw [hget] at h
    cases h
    exact ⟨a, rfl, by simp⟩
  | some s =>
    rw [hget] at h
    obtain ⟨v, hv, h⟩ := ok_of_bind h
    cases h
    have hkind := kind_of_get hget
    refine ⟨a.put f s.reloaded, ?_, fun g => ?_⟩
    · rw [setAll, ofKey?_key, set_shown hkind hv]
      rfl
    · by_cases hg : g = f
      · subst hg
        rw [get_put_self (s.reloaded_kind.trans hkind)]
        simp
      · rw [get_put_ne (s.reloaded_kind.trans hkind) hg]
        simp [hg]

/-- The run: all settings that are shown are loaded as they come back. -/
theorem setAll_shown (c : Config) {fs : List Field} {shown : List (List (String × Value))}
    (h : fs.mapM (c.shownSetting true) = .ok shown) (a : Config) :
    ∃ a', a.setAll shown.flatten = .ok a' ∧
      ∀ g, a'.get g = (if g ∈ fs then (c.get g).map Setting.reloaded else none).or
      (a.get g) := by
  induction fs generalizing shown a with
  | nil =>
    cases h
    exact ⟨a, rfl, by simp⟩
  | cons f fs ih =>
    rw [List.mapM_cons] at h
    obtain ⟨l, hl, h⟩ := ok_of_bind h
    obtain ⟨more, hmore, h⟩ := ok_of_bind h
    cases h
    obtain ⟨a₁, ha₁, hget₁⟩ := setAll_shownSetting a hl
    obtain ⟨a', ha', hget'⟩ := ih hmore a₁
    refine ⟨a', ?_, fun g => ?_⟩
    · rw [List.flatten_cons, setAll_append, ha₁]
      exact ha'
    · rw [hget', hget₁]
      by_cases hg : g = f
      · subst hg
        by_cases hmem : g ∈ fs <;> cases (c.get g) <;> simp [hmem]
      · simp [hg]

theorem setAll_entries {shown} (h : c.entries true = .ok shown) :
    ({} : Config).setAll shown = .ok c.reloaded := by
  obtain ⟨all, hall, h⟩ := ok_of_bind h
  cases h
  obtain ⟨a, ha, hget⟩ := setAll_shown c hall {}
  have hreloaded : a = c.reloaded := by
    refine ext_get fun f => ?_
    have hmem : f ∈ Field.all := by cases f <;> decide
    have hnone : ({} : Config).get f = none := by cases f <;> rfl
    rw [hget, get_reloaded, if_pos hmem, hnone, Option.or_none]
  rw [ha, hreloaded]

theorem formatterCmds_of_get {entries} (h : c.get f = some (.commands entries)) :
    c.formatterCmds = some entries := by
  cases f <;> obtain ⟨x, hx, heq⟩ := Option.map_eq_some_iff.1 h <;> cases heq
  exact hx

def isCommand : CommandEntry → Bool
  | .command _ => true
  | .other _ => false

theorem entries_ok (h : ∀ entries, c.formatterCmds = some entries →
    entries.all isCommand = true) : ∃ shown, c.entries true = .ok shown := by
  have hsetting : ∀ f ∈ Field.all, ∃ l, c.shownSetting true f = .ok l := by
    intro f _
    unfold shownSetting
    cases hget : c.get f with
    | none => exact ⟨[], rfl⟩
    | some s =>
      cases s with
      | text t => exact ⟨_, rfl⟩
      | filter t => exact ⟨_, rfl⟩
      | commands entries =>
        have hshown : ∀ e ∈ entries, ∃ v, commandValue e = .ok v := by
          intro e he
          cases e with
          | command cmd => exact ⟨_, rfl⟩
          | other v => cases List.all_eq_true.1 (h entries (formatterCmds_of_get hget)) _ he
        obtain ⟨items, hitems⟩ := mapM_ok hshown
        refine ⟨[(f.key, .list items)], ?_⟩
        simp only [settingValue, hitems]
        rfl
  obtain ⟨all, hall⟩ := mapM_ok hsetting
  exact ⟨all.flatten, by rw [entries]; exact hall ▸ rfl⟩

/-! ## Checking -/

def filterText (f : Field) (c : Config) : Option FilterText :=
  match f with
  | .keepDefinitions => c.keepDefinitions
  | .keepTrailingDocstrings => c.keepTrailingDocstrings
  | .addImplicitNoneReturn => c.addImplicitNoneReturn
  | .keepIfStatements => c.keepIfStatements
  | .flattenIf => c.flattenIf
  | .addRedundantEllipsis => c.addRedundantEllipsis
  | .keepVariableValue => c.keepVariableValue
  | .keepUnusedImports => c.keepUnusedImports
  | .format => c.format
  | .profile | .pythonVersion | .formatterCmds => none

end Config

def ValidConfig.filter? (v : ValidConfig) : Config.Field → Option Filter
  | .keepDefinitions => some v.keepDefinitions
  | .keepTrailingDocstrings => some v.keepTrailingDocstrings
  | .addImplicitNoneReturn => some v.addImplicitNoneReturn
  | .keepIfStatements => some v.keepIfStatements
  | .flattenIf => some v.flattenIf
  | .addRedundantEllipsis => some v.addRedundantEllipsis
  | .keepVariableValue => some v.keepVariableValue
  | .keepUnusedImports => some v.keepUnusedImports
  | .format => some v.format
  | .profile | .pythonVersion | .formatterCmds => none

namespace Config

/-- The outcome of checking a configuration, setting by setting. -/
structure Checks (c : Config) (v : ValidConfig) : Prop where
  profile : v.profile = c.profileName
  pythonVersion : c.resolve v.profile (·.pythonVersion) = .ok v.pythonVersion
  version : readVersion v.pythonVersion = .ok v.version
  filters : ∀ f x, v.filter? f = some x → c.resolveFilter v.profile (filterText f) = .ok x
  commands : c.resolve v.profile (·.formatterCmds) = .ok v.formatterCmds

variable {c : Config} {v : ValidConfig}

theorem checks_of_validate (h : c.validate = .ok v) : c.Checks v := by
  simp only [validate, bind_eq_ok, pure_eq_ok] at h
  obtain ⟨_, hpython, _, h₁, _, h₂, _, h₃, _, h₄, _, h₅, _, h₆, _, h₇, _, h₈, _,
    h₉, _, hcommands, _, hversion, rfl⟩ := h
  refine ⟨rfl, hpython, hversion, fun f x hx => ?_, hcommands⟩
  cases f <;> cases hx <;> assumption

theorem validate_of_checks (h : c.Checks v) : c.validate = .ok v := by
  obtain ⟨hprofile, hpython, hversion, hfilters, hcommands⟩ := h
  rw [hprofile] at hpython hcommands hfilters
  simp only [validate, bind_eq_ok, pure_eq_ok]
  exact ⟨_, hpython, _, hfilters .keepDefinitions _ rfl, _,
    hfilters .keepTrailingDocstrings _ rfl,
    _, hfilters .addImplicitNoneReturn _ rfl, _, hfilters .keepIfStatements _ rfl,
    _, hfilters .flattenIf _ rfl, _, hfilters .addRedundantEllipsis _ rfl,
    _, hfilters .keepVariableValue _ rfl, _, hfilters .keepUnusedImports _ rfl,
    _, hfilters .format _ rfl, _, hcommands, _, hversion, by rw [← hprofile]⟩

theorem resolveFilter_ok {p} {setting : Config → Option FilterText} {x}
    (h : c.resolveFilter p setting = .ok x) :
    c.resolve p setting = .ok x.raw ∧ Filter.read x.raw = .ok x := by
  obtain ⟨text, htext, h⟩ := ok_of_bind h
  cases hread : Filter.read text with
  | error cause =>
    rw [hread] at h
    cases h
  | ok y =>
    rw [hread] at h
    cases h
    obtain rfl := (Filter.read_eq_ok.1 hread).1
    exact ⟨htext, hread⟩

theorem resolveFilter_of_some {p} {setting : Config → Option FilterText} {x text}
    (htext : setting c = some text) (h : Filter.read text = .ok x) :
    c.resolveFilter p setting = .ok x := by
  simp only [resolveFilter, resolve, htext, bind, Except.bind, h]
  rfl

theorem resolve_ok {α : Type} {p} {setting : Config → Option α} {x}
    (h : c.resolve p setting = .ok x) :
    setting c = some x ∨ ∃ q ∈ profiles, setting q.config = some x := by
  unfold resolve at h
  split at h
  · next heq =>
    cases h
    exact .inl heq
  · split at h
    · cases h
    · next q hq =>
      have hmem : q ∈ profiles := List.mem_of_find?_eq_some hq
      split at h
      · next heq =>
        cases h
        exact .inr ⟨q, hmem, heq⟩
      · next heq =>
        cases h
        exact .inr ⟨defaultProfile, by simp [profiles], heq⟩
      · cases h

end Config

/-! ## Filters that come back -/

namespace Filter

def reloaded (x : Filter) : Filter :=
  match read x.raw.reloaded with
  | .ok y => y
  | .error _ => x

theorem read_plain {raw raw' x} (h : read raw = .ok x) (hplain : raw'.plain = raw.plain) :
    read raw' = .ok { x with raw := raw' } := by
  obtain ⟨-, hparse, hcondition⟩ := read_eq_ok.1 h
  exact read_eq_ok.2 ⟨rfl, hplain ▸ hparse, hcondition⟩

theorem read_reloaded {x} (h : read x.raw = .ok x) (hlayout : x.raw.isIndentable = true) :
    read x.raw.reloaded = .ok x.reloaded ∧ x.reloaded.condition = x.condition := by
  have hread : ∃ y, read x.raw.reloaded = .ok y ∧ y.condition = x.condition := by
    cases hraw : x.raw with
    | flag b =>
      rw [hraw] at h
      exact ⟨x, h, rfl⟩
    | expr text =>
      rw [hraw] at h hlayout
      simp only [FilterText.reloaded]
      split
      · next heq => exact ⟨_, read_plain h (beq_iff_eq.1 heq).symm, rfl⟩
      · split
        · next heq => exact ⟨_, read_plain h (beq_iff_eq.1 heq).symm, rfl⟩
        · exact read_reindented h hlayout
  obtain ⟨y, hy, hcondition⟩ := hread
  have hreloaded : x.reloaded = y := by rw [reloaded, hy]
  exact ⟨hreloaded ▸ hy, hreloaded ▸ hcondition⟩

end Filter

namespace ValidConfig

/-- A checked configuration once it was shown, loaded and checked. -/
def reloaded (v : ValidConfig) : ValidConfig :=
  { v with
    keepDefinitions := v.keepDefinitions.reloaded
    keepTrailingDocstrings := v.keepTrailingDocstrings.reloaded
    addImplicitNoneReturn := v.addImplicitNoneReturn.reloaded
    keepIfStatements := v.keepIfStatements.reloaded
    flattenIf := v.flattenIf.reloaded
    addRedundantEllipsis := v.addRedundantEllipsis.reloaded
    keepVariableValue := v.keepVariableValue.reloaded
    keepUnusedImports := v.keepUnusedImports.reloaded
    format := v.format.reloaded
    formatterCmds := v.formatterCmds.map CommandEntry.reloaded }

variable {v : ValidConfig} {c : Config}

theorem filter?_reloaded (f : Config.Field) :
    v.reloaded.filter? f = (v.filter? f).map Filter.reloaded := by
  cases f <;> rfl

theorem filterText_reloaded (f : Config.Field) :
    v.toConfig.reloaded.filterText f = (v.filter? f).map fun x => x.raw.reloaded := by
  cases f <;> rfl

theorem filter?_read (h : c.Checks v) {f x} (hx : v.filter? f = some x) :
    Filter.read x.raw = .ok x ∧
      (c.filterText f = some x.raw ∨ ∃ q ∈ Config.profiles,
      q.config.filterText f = some x.raw) := by
  obtain ⟨hresolve, hread⟩ := Config.resolveFilter_ok (h.filters f x hx)
  exact ⟨hread, Config.resolve_ok hresolve⟩

theorem isIndentable_expr {text chars} (htext : text = String.ofList chars)
    (h : Syntax.isIndentable Filter.dialect chars = true) :
    (FilterText.expr text).isIndentable = true := by
  rw [FilterText.isIndentable, htext, String.toList_ofList, h]

set_option maxRecDepth 4000 in
theorem profiles_isIndentable {q} (hq : q ∈ Config.profiles) {f text}
    (h : q.config.filterText f = some text) : text.isIndentable = true := by
  simp only [Config.profiles, List.mem_cons, List.not_mem_nil, or_false] at hq
  rcases hq with rfl | rfl | rfl <;> cases f <;> cases h <;>
    first | exact isIndentable_expr rfl (by decide +kernel) | rfl

theorem profiles_isCommand :
    (Config.profiles.all fun q =>
    (q.config.formatterCmds.getD []).all Config.isCommand) = true := by
  decide +kernel

theorem isIndentable_of_checks (h : c.Checks v)
    (hfilters : ∀ f text, c.filterText f = some text → text.isIndentable = true) {f x}
    (hx : v.filter? f = some x) : x.raw.isIndentable = true := by
  rcases (filter?_read h hx).2 with hown | ⟨q, hq, htext⟩
  · exact hfilters f x.raw hown
  · exact profiles_isIndentable hq htext

theorem isCommand_of_checks (h : c.Checks v)
    (hcommands : ∀ entries, c.formatterCmds = some entries →
      entries.all Config.isCommand = true) :
    v.formatterCmds.all Config.isCommand = true := by
  rcases Config.resolve_ok h.commands with hown | ⟨q, hq, hentries⟩
  · exact hcommands _ hown
  · have hall := List.all_eq_true.1 profiles_isCommand q hq
    rw [hentries] at hall
    exact hall

theorem profileName_ne (c : Config) : c.profileName ≠ "" := by
  unfold Config.profileName
  split
  · decide
  · decide
  · next hname _ => exact hname

theorem profileName_of_some {p} (h : c.profile = some p) (hp : p ≠ "") : c.profileName = p := by
  unfold Config.profileName
  rw [h]
  split
  · next heq => cases heq
  · next heq => exact absurd (Option.some.inj heq) hp
  · next heq => exact (Option.some.inj heq).symm

theorem checks_reloaded (h : c.Checks v)
    (hlayout : ∀ {f x}, v.filter? f = some x → x.raw.isIndentable = true) :
    v.toConfig.reloaded.Checks v.reloaded where
  profile := (profileName_of_some rfl (h.profile ▸ profileName_ne c)).symm
  pythonVersion := rfl
  version := h.version
  filters f y hy := by
    rw [filter?_reloaded] at hy
    obtain ⟨x, hx, rfl⟩ := Option.map_eq_some_iff.1 hy
    have htext : v.toConfig.reloaded.filterText f = some x.raw.reloaded := by
      rw [filterText_reloaded, hx]
      rfl
    exact Config.resolveFilter_of_some htext
      (Filter.read_reloaded (filter?_read h hx).1 (hlayout hx)).1
  commands := rfl

end ValidConfig

namespace Data

mutual

/-- A test that finds values equal: truth values and texts, and lists and tables of these. -/
def agree : Value → Value → Bool
  | .bool b, .bool c => b == c
  | .str s, .str t => s == t
  | .list vs, .list ws => agreeItems vs ws
  | .table vs, .table ws => agreeEntries vs ws
  | _, _ => false

def agreeItems : List Value → List Value → Bool
  | [], [] => true
  | v :: vs, w :: ws => agree v w && agreeItems vs ws
  | _, _ => false

def agreeEntries : List (String × Value) → List (String × Value) → Bool
  | [], [] => true
  | (key, v) :: vs, (key', w) :: ws => key == key' && agree v w && agreeEntries vs ws
  | _, _ => false

end

mutual

theorem eq_of_agree (v w : Value) (h : agree v w = true) : v = w := by
  cases v <;> cases w <;> simp only [agree, beq_iff_eq, Bool.false_eq_true] at h
  case bool.bool | str.str => rw [h]
  case list.list vs ws => rw [eq_of_agreeItems vs ws h]
  case table.table vs ws => rw [eq_of_agreeEntries vs ws h]

theorem eq_of_agreeItems (vs ws : List Value) (h : agreeItems vs ws = true) : vs = ws := by
  cases vs <;> cases ws <;> simp only [agreeItems, Bool.and_eq_true, Bool.false_eq_true] at h
  · rfl
  · rw [eq_of_agree _ _ h.1, eq_of_agreeItems _ _ h.2]

theorem eq_of_agreeEntries (vs ws : List (String × Value)) (h : agreeEntries vs ws = true) :
    vs = ws := by
  cases vs <;> cases ws <;>
    simp only [agreeEntries, Bool.and_eq_true, beq_iff_eq, Bool.false_eq_true] at h
  · rfl
  · next v vs w ws =>
    obtain ⟨⟨hkey, hvalue⟩, hmore⟩ := h
    rw [eq_of_agreeEntries _ _ hmore, Prod.ext hkey (eq_of_agree _ _ hvalue)]

end

end Data

namespace Config

def document (shown : List (String × Value)) : List (String × Value) :=
  [("tool", .table [("dubstub", .table shown)])]

/-- What is shown as TOML is the document of the entries, without white space at its ends. -/
theorem render_toml {c : Config} {shown : List (String × Value)}
    (hshown : c.entriesFor "toml" = .ok shown) :
    c.render "toml" = .ok (String.ofList (Text.strip (Toml.write (document shown)).toList)) := by
  rw [render, hshown]
  rfl

/-- A checked configuration can be shown as TOML, and the data that is shown can be loaded and
checked again. The profile and the version stay the same, and so do the contexts in which each
filter matches. Formatter commands come back as tables of their names and command lines. If the text
is read as the data it was written from, this is what loading the text comes to. -/
theorem reload_keeps_meaning {c : Config} {v : ValidConfig} (hv : c.validate = .ok v)
    (hcommands : ∀ entries, c.formatterCmds = some entries → entries.all isCommand = true)
    (hfilters : ∀ f text, c.filterText f = some text → text.isIndentable = true) :
    ∃ shown text c' w, v.toConfig.entriesFor "toml" = .ok shown ∧
      v.toConfig.render "toml" = .ok text ∧
      (Toml.read? text.toList = some (document shown) → ofToml text.toList = .ok c') ∧
      ofValue (.table (document shown)) = .ok c' ∧ c'.validate = .ok w ∧
      w.profile = v.profile ∧ w.pythonVersion = v.pythonVersion ∧ w.version = v.version ∧
      w.formatterCmds = v.formatterCmds.map CommandEntry.reloaded ∧
      ∀ f ctx, (w.filter? f).map (·.isMatch ctx) = (v.filter? f).map (·.isMatch ctx) := by
  have hchecks := checks_of_validate hv
  have hlayout {f x} (hx : v.filter? f = some x) : x.raw.isIndentable = true :=
    ValidConfig.isIndentable_of_checks hchecks hfilters hx
  obtain ⟨shown, hshown⟩ : ∃ shown, v.toConfig.entriesFor "toml" = .ok shown :=
    entries_ok fun entries hentries =>
      Option.some.inj hentries ▸ ValidConfig.isCommand_of_checks hchecks hcommands
  have hvalue : ofValue (.table (document shown)) = .ok v.toConfig.reloaded := setAll_entries hshown
  refine ⟨shown, String.ofList (Text.strip (Toml.write (document shown)).toList),
    v.toConfig.reloaded, v.reloaded, hshown, render_toml hshown, fun hread => ?_, hvalue,
    validate_of_checks (ValidConfig.checks_reloaded hchecks hlayout), rfl, rfl, rfl, rfl,
    fun f ctx => ?_⟩
  · rw [ofToml, hread]
    exact hvalue
  · rw [ValidConfig.filter?_reloaded]
    cases hx : v.filter? f with
    | none => rfl
    | some x =>
      obtain ⟨-, hcondition⟩ :=
        Filter.read_reloaded (ValidConfig.filter?_read hchecks hx).1 (hlayout hx)
      simp only [Option.map_some, Filter.isMatch, hcondition]

def sampleConfig (filter : String) : Config :=
  { keepDefinitions := some (.expr filter)
    keepTrailingDocstrings := some (.flag false)
    addImplicitNoneReturn := some (.flag true)
    keepIfStatements := some (.flag true)
    flattenIf := some (.flag false)
    addRedundantEllipsis := some (.flag false)
    keepVariableValue := some (.expr "True")
    keepUnusedImports := some (.flag false)
    format := some (.expr "not False")
    formatterCmds := some [.command { name := "f", cmdline := ["x", "-y"] }] }

/-- A filter over several lines with a comment, white space and brackets. -/
def sampleFilter : String :=
  "name_is('a')  # first\n\tor not (\n\nname_is(\"b'\"))\n"

/-- One character for each byte: the characters of an ASCII text, and quicker to evaluate. -/
def byteChars (s : String) : List Char :=
  s.toByteArray.data.toList.map fun b => Char.ofNat b.toNat

theorem sample_agrees : (sampleConfig sampleFilter).validate.toOption.any (fun v =>
    (v.toConfig.entriesFor "toml").toOption.any fun shown =>
    let text := Toml.write (document shown)
    text == String.ofList (byteChars text) &&
      (Toml.read? (Text.strip (byteChars text))).any
        fun data => agreeEntries data (document shown)) = true := by
  decide +kernel

theorem reload_keeps_meaning_on_sample :
    ∃ v shown text c' w, (sampleConfig sampleFilter).validate = .ok v ∧
      v.toConfig.entriesFor "toml" = .ok shown ∧ v.toConfig.render "toml" = .ok text ∧
      Toml.read? text.toList = some (document shown) ∧ ofToml text.toList = .ok c' ∧
      ofValue (.table (document shown)) = .ok c' ∧ c'.validate = .ok w ∧
      w.profile = v.profile ∧ w.pythonVersion = v.pythonVersion ∧ w.version = v.version ∧
      w.formatterCmds = v.formatterCmds.map CommandEntry.reloaded ∧
      ∀ f ctx, (w.filter? f).map (·.isMatch ctx) = (v.filter? f).map (·.isMatch ctx) := by
  obtain ⟨v, hv, hagree⟩ := any_toOption_iff.1 sample_agrees
  obtain ⟨shown, hshown, hagree⟩ := any_toOption_iff.1 hagree
  obtain ⟨hchars, hagree⟩ := Bool.and_eq_true_iff.1 hagree
  obtain ⟨_, hread, hagree⟩ := (Option.any_eq_true _ _).1 hagree
  obtain rfl := eq_of_agreeEntries _ _ hagree
  have htext := render_toml hshown
  rw [eq_of_beq hchars, String.toList_ofList] at htext
  have hall : (Field.all.all fun f =>
      ((sampleConfig sampleFilter).filterText f).all (·.isIndentable)) = true := by
    decide +kernel
  have hfilters : ∀ f text, (sampleConfig sampleFilter).filterText f = some text →
      text.isIndentable = true := by
    intro f text htext
    have hf := List.all_eq_true.1 hall f (by cases f <;> decide)
    rw [htext] at hf
    exact hf
  have hcommands : ∀ entries, (sampleConfig sampleFilter).formatterCmds = some entries →
      entries.all isCommand = true := by
    intro entries hentries
    exact Option.some.inj hentries ▸ rfl
  obtain ⟨_, text, c', w, hshown', htext', hload, h⟩ := reload_keeps_meaning hv hcommands hfilters
  cases hshown.symm.trans hshown'
  have hlist := congrArg String.toList (Except.ok.inj (htext'.symm.trans htext))
  rw [String.toList_ofList] at hlist
  rw [← hlist] at hread
  exact ⟨v, shown, text, c', w, hv, hshown, htext', hread, hload hread, h⟩

/-- A literal that runs over two lines stands for another text when its lines are indented anew, and
formatter commands are no commands when they come back. -/
theorem reload_changes_meaning :
    ∃ v shown c' w ctx, (sampleConfig "name_is('a\\\n b')").validate = .ok v ∧
      v.toConfig.entriesFor "toml" = .ok shown ∧ ofValue (.table (document shown)) = .ok c' ∧
      c'.validate = .ok w ∧
      v.keepDefinitions.isMatch ctx = .ok true ∧ w.keepDefinitions.isMatch ctx = .ok false ∧
      v.formatterCmds.all isCommand = true ∧ w.formatterCmds.all isCommand = false := by
  let ctx : Filter.Context :=
    { parentTags := [.module], tags := [.classDef], filePath := "m.py", name := some "a b" }
  have hreloads : (sampleConfig "name_is('a\\\n b')").validate.toOption.any (fun v =>
      (v.toConfig.entriesFor "toml").toOption.any fun shown =>
      (ofValue (.table (document shown))).toOption.any fun c' => c'.validate.toOption.any fun w =>
        (v.keepDefinitions.isMatch ctx).toOption == some true
        && (w.keepDefinitions.isMatch ctx).toOption == some false
        && v.formatterCmds.all isCommand && !w.formatterCmds.all isCommand) = true := by
    decide +kernel
  simp only [any_toOption_iff, Bool.and_eq_true, beq_iff_eq, toOption_eq_some_iff,
    Bool.not_eq_true'] at hreloads
  obtain ⟨v, hv, shown, hshown, c', hc', w, hw, ⟨⟨hbefore, hafter⟩, hcommands⟩,
    htables⟩ := hreloads
  exact ⟨v, shown, c', w, ctx, hv, hshown, hc', hw, hbefore, hafter, hcommands, htables⟩

end Config

end TypeStub
