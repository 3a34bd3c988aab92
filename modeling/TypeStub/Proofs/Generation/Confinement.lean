import TypeStub.Proofs.Generation.Run
/-!
# Where a generation run can do harm

A run may fail on the way, and its output may lie in its input or be the same. In each case it
changes nothing outside of its output, except that it makes the directories that lead there
(`Confined`). This is so for each step (`handle_endsIn`), since the output of every event lies at or
below that of the run (`event?_inside`), and hence for the walk through the input
(`forEvents_endsIn`).

A package that is its own output is lost (`writeStubs_destroys_input`).
-/

namespace TypeStub

namespace Generation

open TypeStub.Files TypeStub.WorkM Store

/-! ## Changes outside of the output -/

/-- Outside of the output everything is seen as before, except that directories may have been made
that lead to it and were missing. -/
def Confined (output : List String) (before after : List String → Option Item) : Prop :=
  ∀ q, ¬ output <+: q → after q = before q ∨ q <+: output ∧ before q = none ∧
    after q = some .dir

namespace Confined

variable {output : List String} {v v₁ v₂ : List String → Option Item}

theorem refl (output : List String) (v : List String → Option Item) : Confined output v v :=
  fun _ _ => .inl rfl

theorem trans (h : Confined output v v₁) (h' : Confined output v₁ v₂) :
    Confined output v v₂ := by
  intro q hq
  obtain heq | ⟨habove, hnone, hdir⟩ := h q hq
  · rw [← heq]
    exact h' q hq
  · obtain heq' | ⟨_, hnone', _⟩ := h' q hq
    · exact .inr ⟨habove, hnone, heq'.trans hdir⟩
    · -- what was made is not missing
      rw [hdir] at hnone'
      cases hnone'

theorem file (h : Confined output v v₁) {q content executable} (hq : ¬ output <+: q)
    (hfile : v q = some (.file content executable)) : v₁ q = some (.file content executable) := by
  obtain heq | ⟨_, hnone, _⟩ := h q hq
  · rw [heq, hfile]
  · rw [hfile] at hnone
    cases hnone

end Confined

section Steps

variable {output target : List String} {s s' : Store} {w : Workspace} {config : ValidConfig}

/-- The files are a plain tree, and only the output of the run was touched. -/
structure Within (output : List String) (before : List String → Option Item) (s : Store) :
    Prop where
  plain : s.root.Plain
  confined : Confined output before s.at?

variable {before : List String → Option Item}

theorem Within.step (h : Within output before s) (hplain : s'.root.Plain)
    (hstep : Confined output s.at? s'.at?) : Within output before s' :=
  ⟨hplain, h.confined.trans hstep⟩

theorem Within.removed (h : Within output before s) (htarget : output <+: target)
    (hplain : s'.root.Plain) (hview : ∀ q, s'.at? q = if target <+: q then none else s.at? q) :
    Within output before s' := by
  refine h.step hplain fun q hq => .inl ?_
  rw [hview, if_neg fun hle => hq (htarget.trans hle)]

theorem Within.dirsMade {front name} (h : Within output before s)
    (htarget : output <+: front ++ [name]) (hdirs : DirsMade s front s') :
    Within output before s' := by
  refine h.step hdirs.plain fun q hq => ?_
  by_cases hfront : q <+: front
  · rw [hdirs.view, if_pos hfront]
    obtain hnone | hdir := hdirs.before q hfront
    · have habove : q <+: output :=
        (List.prefix_or_prefix_of_prefix htarget
          (hfront.trans (List.prefix_append _ _))).resolve_left hq
      exact .inr ⟨habove, hnone, rfl⟩
    · exact .inl hdir.symm
  · rw [hdirs.view, if_neg hfront]
    exact .inl rfl

theorem Within.fileMade {place content executable} (h : Within output before s)
    (hplace : output <+: place) (hfile : FileMade s place content executable s') :
    Within output before s' := by
  refine h.step hfile.plain fun q hq => .inl ?_
  rw [hfile.view, if_neg]
  rintro rfl
  exact hq hplace

/-- An event whose output lies at or below the output of the run. -/
structure Event.Inside (e : Event) (output : List String) : Prop where
  input : ∃ source, e.input = .absolute source ∧ Forward source
  output : ∃ front name, e.output = .absolute (front ++ [name]) ∧ Forward (front ++ [name]) ∧
    output <+: front ++ [name]

/-- Each step of a run is confined to the output, whether it is done or fails. -/
theorem handle_endsIn {e} (he : e.Inside output) (h : Within output before w.store) :
    EndsIn (Within output before) (handle config e) w := by
  obtain ⟨⟨source, hinput, hsource⟩, front, name, houtput, hforward, htarget⟩ := he
  have hmake : ∀ w, Within output before w.store →
      EndsIn (Within output before) (alter (·.makeDirs e.output.parent)) w := by
    intro w h
    refine endsIn_alter h fun s hs => ?_
    rw [houtput, parent_absolute] at hs
    exact h.dirsMade htarget (makeDirs_ok h.plain (forward_append.1 hforward).1 hs)
  -- the directories lead to the root
  have hroot : ∀ w u w₁, Within output before w.store →
      Runs (alter (·.makeDirs e.output.parent)) w u w₁ → w₁.store.at? [] = some .dir := by
    intro w u w₁ h hrun
    have hmade := of_runs_alter hrun
    rw [houtput, parent_absolute] at hmade
    exact (makeDirs_ok h.plain (forward_append.1 hforward).1 hmade).root
  unfold handle
  split
  · refine endsIn_bind (endsIn_say _ h) fun _ w₁ _ h₁ => endsIn_alter h₁ fun s hs => ?_
    rw [houtput] at hs
    obtain ⟨hplain, hview⟩ := remove_ok h₁.plain hforward hs
    exact h₁.removed htarget hplain hview
  · refine endsIn_bind (endsIn_say _ h) fun _ w₁ _ h₁ => ?_
    refine endsIn_bind (hmake w₁ h₁) fun u w₂ hrun h₂ => endsIn_alter h₂ fun s hs => ?_
    rw [hinput, houtput] at hs
    obtain ⟨place, content, executable, _, hmade, hplace⟩ :=
      copy_ok h₂.plain (hroot w₁ u w₂ h₁ hrun) hsource hforward hs
    refine h₂.fileMade ?_ hmade
    obtain rfl | ⟨hbelow, _⟩ := hplace
    · exact htarget
    · exact htarget.trans hbelow
  · refine endsIn_bind (endsIn_say _ h) fun _ w₁ _ h₁ => ?_
    refine endsIn_bind (endsIn_look _ h₁) fun text w₂ _ h₂ => ?_
    refine endsIn_bind (endsIn_ofStub _ h₂) fun stub w₃ _ h₃ => ?_
    refine endsIn_bind (hmake w₃ h₃) fun u w₄ hrun h₄ => endsIn_alter h₄ fun s hs => ?_
    rw [houtput] at hs
    obtain ⟨executable, hmade, _⟩ :=
      writeText_ok h₄.plain (hroot w₃ u w₄ h₃ hrun) hforward hs
    exact h₄.fileMade htarget hmade

end Steps

/-! ## Events -/

section Events

variable {input output top place : List String} {e : Event} {m : Mapping} {w w' : Workspace}

theorem relativeTo?_of_some {base} {p below : Path}
    (h : p.relativeTo? (.absolute base) = some below) :
    ∃ rest, p = .absolute (base ++ rest) ∧ below = .mk "" rest := by
  unfold Path.relativeTo? at h
  split at h
  · next hroot =>
    obtain ⟨rest, hrest, rfl⟩ := Option.map_eq_some_iff.1 h
    obtain ⟨root, names⟩ := p
    obtain rfl : names = base ++ rest := Text.dropPrefix?_split hrest
    obtain rfl : root = "/" := by simpa [Path.absolute] using hroot
    exact ⟨rest, rfl, rfl⟩
  · cases h

theorem withSuffix?_of_some {names p} (hnames : Forward names)
    (h : (Path.absolute names).withSuffix? ".pyi" = some p) :
    ∃ name, p = .absolute (names.dropLast ++ [name]) ∧ Forward p.names := by
  unfold Path.withSuffix? at h
  split at h
  · cases h
  · cases h
    refine ⟨_, rfl, forward_append.2 ⟨fun n hn => hnames n (List.mem_of_mem_dropLast hn),
      forward_single.2 fun hback => ?_⟩⟩
    have hlength := congrArg String.length hback
    rw [String.length_append] at hlength
    have : ".pyi".length = 4 ∧ "..".length = 2 := by decide
    omega

theorem Event.Inside.of_output {rest} (hinput : e.input = .absolute place) (hplace : Forward place)
    (houtput : e.output = .absolute (top ++ rest)) (hforward : Forward (top ++ rest))
    (hne : top ≠ []) (htop : output <+: top) : e.Inside output := by
  refine ⟨⟨place, hinput, hplace⟩, ?_⟩
  obtain hnil | ⟨front, name, hconcat⟩ := List.eq_nil_or_concat' (top ++ rest)
  · exact absurd (List.append_eq_nil_iff.1 hnil).1 hne
  · rw [hconcat] at houtput hforward
    refine ⟨front, name, houtput, hforward, ?_⟩
    rw [← hconcat]
    exact htop.trans (List.prefix_append _ _)

/-- The output of an event is where its input would be below the output of the run, except that the
suffix of a module is replaced. -/
theorem event?_cases {action} (hinput : m.input = .absolute input)
    (houtput : m.output = .absolute top) (h : m.event? action (.absolute place) = some e) :
    e.action = action ∧ e.input = .absolute place ∧ ∃ rest, place = input ++ rest ∧
      (e.output = .absolute (top ++ rest) ∨ (Path.absolute place).suffix = ".py" ∧
        (Path.absolute (top ++ rest)).withSuffix? ".pyi" = some e.output ∧
        ∃ behind, e.output = .absolute (top ++ behind)) := by
  unfold Mapping.event? at h
  rw [hinput, houtput] at h
  obtain ⟨below, hbelow, h⟩ := Option.bind_eq_some_iff.1 h
  obtain ⟨rest, hrest, rfl⟩ := relativeTo?_of_some hbelow
  have hplace : place = input ++ rest := congrArg Path.names hrest
  split at h
  · cases h
    exact ⟨rfl, rfl, rest, hplace, .inl rfl⟩
  · dsimp only at h
    split at h
    · next hpy =>
      obtain ⟨out, hout, h⟩ := Option.bind_eq_some_iff.1 h
      obtain ⟨shown, hshown, h⟩ := Option.bind_eq_some_iff.1 h
      cases h
      obtain ⟨behind, hbehind, _⟩ := relativeTo?_of_some hshown
      exact ⟨rfl, rfl, rest, hplace, .inr ⟨beq_iff_eq.1 hpy, hout, behind, hbehind⟩⟩
    · obtain ⟨out, hout, h⟩ := Option.bind_eq_some_iff.1 h
      cases hout
      obtain ⟨shown, hshown, h⟩ := Option.bind_eq_some_iff.1 h
      cases h
      exact ⟨rfl, rfl, rest, hplace, .inl rfl⟩

theorem event?_inside {action} (hinput : m.input = .absolute input)
    (houtput : m.output = .absolute top) (htop : Forward top) (hne : top ≠ [])
    (hle : output <+: top) (hplace : Forward place)
    (h : m.event? action (.absolute place) = some e) : e.Inside output := by
  obtain ⟨-, hin, rest, rfl, hout | ⟨-, hsuffix, behind, hout⟩⟩ :=
    event?_cases hinput houtput h
  all_goals
    have hforward : Forward (top ++ rest) :=
      forward_append.2 ⟨htop, (forward_append.1 hplace).2⟩
  · exact .of_output hin hplace hout hforward hne hle
  · obtain ⟨_, _, hnames⟩ := withSuffix?_of_some hforward hsuffix
    rw [hout] at hnames
    exact .of_output hin hplace hout hnames hne hle

theorem ends_mapping {inputPath outputPath} (hplain : w.store.root.Plain)
    (hcwd : w.store.at? w.store.cwd = some .dir) :
    Ends (fun m v => v = w ∧ m.input = .absolute (w.store.resolve inputPath).names ∧
      ∃ top, m.output = .absolute top ∧ Forward top ∧
      (w.store.resolve outputPath).names <+: top) (fun v => v = w)
      (Mapping.ofPaths inputPath outputPath) w := by
  have hin : Forward (w.store.resolve inputPath).names := forward_resolve hplain hcwd
  have hout : Forward (w.store.resolve outputPath).names := forward_resolve hplain hcwd
  rw [Mapping.ofPaths]
  refine ends_files_bind ?_
  split
  · exact Ends.bind (ends_throw rfl) fun _ _ => False.elim
  dsimp only
  split
  · have hchild :
      Forward ((w.store.resolve outputPath).names ++ [(w.store.resolve inputPath).name]) :=
      forward_append.2 ⟨hout, forward_single.2 (forward_name hin)⟩
    split
    · next target htarget =>
      refine ends_pure ⟨rfl, rfl, ?_⟩
      split at htarget
      · obtain ⟨name, rfl, hnames⟩ := withSuffix?_of_some hchild htarget
        rw [List.dropLast_concat] at hnames ⊢
        exact ⟨_, rfl, hnames, List.prefix_append _ _⟩
      · cases htarget
        exact ⟨_, rfl, hchild, List.prefix_append _ _⟩
    · exact ends_throw rfl
  · exact ends_pure ⟨rfl, rfl, _, rfl, hout, List.prefix_refl _⟩

end Events

/-! ## Runs -/

section Runs

variable {input output top : List String} {m : Mapping} {w : Workspace} {config : ValidConfig}
  {before : List String → Option Item}

/-- What a run keeps when it handles events, whether it goes on or fails. -/
theorem ends_note {e done} (he : e.Inside output) (h : Within output before w.store) :
    Ends (fun _ v => Within output before v.store) (fun v => Within output before v.store)
      (note (handle config) done e) w :=
  (endsIn_iff.1 (handle_endsIn he h)).bind fun _ _ h₁ => ends_pure h₁

theorem forEvents_endsIn (hinput : m.input = .absolute input) (houtput : m.output = .absolute top)
    (hin : Forward input) (htop : Forward top) (hne : top ≠ []) (hle : output <+: top)
    (h : Within output before w.store) :
    EndsIn (Within output before) (forEvents m (handle config)) w := by
  have hleads : Leads (fun (_ : List Event) v => Within output before v.store) Forward := by
    intro _ w place names h hplace hlist name hname
    exact h.plain.forward (exists_of_list h.plain hplace hlist hname)
  refine endsIn_iff.2 (forEvents_ends hleads (fun hplace h =>
    ends_event (fun e he => ⟨h, fun _ => ?_⟩)
    fun _ => h) (fun _ h => .inr h) hinput hin h)
  have hinside := event?_inside hinput houtput htop hne hle hplace he
  exact ends_note ⟨hinside.input, hinside.output⟩ h

/-- What a run does not harm: everything outside of the output, the files there in particular, and
the whole input if the output lies apart from it. -/
structure Spares (input output : List String) (before after : List String → Option Item) :
    Prop where
  confined : Confined output before after
  files : ∀ q content executable, ¬ output <+: q →
    before q = some (.file content executable) → after q = some (.file content executable)
  input : ¬ output <+: input → ¬ input <+: output → ∀ q, input <+: q → after q = before q

theorem Confined.spares {after : List String → Option Item} (h : Confined output before after) :
    Spares input output before after where
  confined := h
  files q _ _ hq hfile := h.file hq hfile
  input hnotAbove hnotBelow q hq := by
    have hout : ¬ output <+: q := fun hle =>
      (List.prefix_or_prefix_of_prefix hle hq).elim hnotAbove hnotBelow
    obtain heq | ⟨habove, _⟩ := h q hout
    · exact heq
    · exact absurd (hq.trans habove) hnotBelow

/-- **A run does no harm outside of its output**, wherever the output lies and whether the run
returns or fails. -/
theorem writeStubs_confined {inputPath outputPath : Path} (hplain : w.store.root.Plain)
    (hcwd : w.store.at? w.store.cwd = some .dir) (config : ValidConfig) :
    EndsIn (fun s => Spares (w.store.resolve inputPath).names (w.store.resolve outputPath).names
      w.store.at? s.at?) (WorkList.ofPaths inputPath outputPath >>= writeStubs config) w := by
  by_cases hroot : (w.store.resolve outputPath).names = []
  · -- nothing lies outside of the whole tree
    refine Confined.spares fun q hq => absurd ?_ hq
    rw [hroot]
    exact List.nil_prefix
  have hstart : Within (w.store.resolve outputPath).names w.store.at? w.store :=
    ⟨hplain, .refl _ _⟩
  have hend : EndsIn (Within (w.store.resolve outputPath).names w.store.at?)
      (WorkList.ofPaths inputPath outputPath >>= writeStubs config) w := by
    rw [WorkList.ofPaths, bind_assoc]
    refine endsIn_iff.2 (Ends.bind ((ends_mapping hplain hcwd).imp (fun _ _ => id) fun _ hv =>
      hv ▸ hstart) ?_)
    rintro m _ ⟨rfl, hinput, top, houtput, htop, hle⟩
    have hne : top ≠ [] := fun hnil => hroot (List.prefix_nil.1 (hnil ▸ hle))
    exact (endsIn_iff.1 (forEvents_endsIn hinput houtput (forward_resolve hplain hcwd) htop hne hle
      hstart)).bind fun _ _ h => ends_pure h
  exact hend.confined.spares

/-! A package beside a module. -/

def packageTree : Entry :=
  .dir [("a.py", .file .empty false), ("pkg", .dir [("__init__.py", .file .empty false)])]

def packageWorkspace : Workspace where
  store := ⟨packageTree, []⟩
  scratch := .absolute ["tmp"]
  interpreter := ""

theorem packageTree_plain : packageTree.Plain := by
  have hpackage : (Entry.dir [("__init__.py", .file .empty false)]).Plain :=
    plain_single (by decide) .file
  exact .dir (by decide) (by decide) (by simp [hpackage, Entry.Plain.file])

def ownOutput (config : ValidConfig) : WorkM WorkList :=
  WorkList.ofPaths (.read "pkg") (.read "pkg") >>= writeStubs config

theorem package_lost : ∃ config, Stub.keepPublic.validate = .ok config ∧
      EndsIn (fun s =>
      s.at? ["pkg", "__init__.py"] = none) (ownOutput config) packageWorkspace := by
  have hlost : Stub.keepPublic.validate.toOption.any (fun config =>
      (((ownOutput config).run.run packageWorkspace).2.store.at? ["pkg", "__init__.py"]).isNone)
      = true := by decide +kernel
  simp only [any_toOption_iff, Option.isNone_iff_eq_none] at hlost
  exact hlost

theorem writeStubs_confined_on_package :
    ∃ config, Stub.keepPublic.validate = .ok config ∧ packageTree.Plain ∧
      packageTree.at? [] = some .dir ∧
      EndsIn (fun s => Spares ["pkg"] ["stubs"] packageTree.at? s.at? ∧
        s.at? ["pkg", "__init__.py"] = some (.file .empty false))
        (WorkList.ofPaths (.read "pkg") (.read "stubs") >>= writeStubs config)
        packageWorkspace := by
  obtain ⟨config, hconfig, _⟩ := package_lost
  have hinput : (packageWorkspace.store.resolve (.read "pkg")).names = ["pkg"] := by decide +kernel
  have houtput : (packageWorkspace.store.resolve (.read "stubs")).names = ["stubs"] := by
    decide +kernel
  have hspares := @writeStubs_confined packageWorkspace (.read "pkg") (.read "stubs")
    packageTree_plain rfl config
  rw [hinput, houtput] at hspares
  have hkept := hspares.input (by decide) (by decide) ["pkg", "__init__.py"] (by decide)
  exact ⟨config, hconfig, packageTree_plain, rfl, hspares, hkept⟩

/-- **A run can destroy its input**: a package that is its own output is removed, and nothing is
left to be stubbed. -/
theorem writeStubs_destroys_input : ¬ ∀ (w : Workspace) (config : ValidConfig)
    (inputPath outputPath : Path) (q : List String) (content : ByteArray) (executable : Bool),
    w.store.root.Plain → w.store.at? w.store.cwd = some .dir →
    (w.store.resolve inputPath).names <+: q → isModulePath (.absolute q) = true →
    w.store.at? q = some (.file content executable) →
    EndsIn (fun s => s.at? q = some (.file content executable))
      (WorkList.ofPaths inputPath outputPath >>= writeStubs config) w := by
  intro hall
  obtain ⟨config, _, hlost⟩ := package_lost
  have hbelow :
      (packageWorkspace.store.resolve (.read "pkg")).names <+: ["pkg", "__init__.py"] := by
    decide +kernel
  have hkept := hall packageWorkspace config (.read "pkg") (.read "pkg") ["pkg",
    "__init__.py"] .empty false packageTree_plain rfl hbelow (by decide +kernel) rfl
  exact absurd (hlost.symm.trans hkept) (by simp)

end Runs

end Generation

end TypeStub
