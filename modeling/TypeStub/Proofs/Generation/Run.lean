import TypeStub.Proofs.Generation.Effect
import TypeStub.Proofs.Generation.Events
import TypeStub.Proofs.Stub.Stubbable
/-!
# What a generation run does to the files

A run cleans the output of one root after the other, and takes up what lies below it. `Progress`
says what has been done so far. It is kept by each step (`Progress.clean`, `Progress.take`), hence
while the events are handled in turn (`Tour.progress`). The order of the roots sees to it that no
output is removed again.

`writeStubs_generated`: the effect of a run that returns.
-/

namespace TypeStub.Generation

open TypeStub.Files TypeStub.WorkM Store

variable {s : Store} {w w' : Workspace} {config : ValidConfig}

/-! ## What a run has done so far -/

section Progress

variable {tree : Entry} {input output below : List String} {roots files : List String → Prop}
  {u : Unit}

/-- Some roots have been cleaned, and some files have been taken up. -/
structure Progress (config : ValidConfig) (tree : Entry) (input output : List String)
    (roots files : List String → Prop) (s : Store) : Prop where
  keeps : Keeps tree input s
  sources : ∀ x, files x → IsSource tree input x
  products : ∀ x, files x → ∃ item, Product config tree input x item
  effect : Effect (fun r => ∃ x, roots x ∧ r = output ++ outBelow x)
    (fun f item => ∃ x, files x ∧ Product config tree input x item ∧ f = output ++ outBelow x)
    tree.at? s.at?

section Runs

variable (hs : Apart tree input output)
include hs

theorem Apart.forward_out (hw : Keeps tree input s) (hexists : tree.at? (input ++ below) ≠ none) :
    Forward (output ++ outBelow below) :=
  forward_append.2 ⟨hs.forward, forward_outBelow
    (forward_append.1 (hw.forward (List.prefix_append _ _) hexists)).2⟩

theorem handle_clean_view (hw : Keeps tree input w.store)
    (hexists : tree.at? (input ++ below) ≠ none)
    (h : Runs (handle config (eventOf input output .clean below)) w u w') :
    Keeps tree input w'.store ∧ ∀ q, w'.store.at? q
      = if output ++ outBelow below <+: q then none else w.store.at? q := by
  have hforward := hs.forward_out hw hexists
  obtain ⟨front, name, hout⟩ := hs.out_concat below
  rw [hout] at hforward
  obtain ⟨hplain, hview⟩ := clean_ok hw.plain hforward (congrArg Path.absolute hout) h
  rw [← hout] at hview
  refine ⟨⟨hplain, fun q hq => ?_⟩, hview⟩
  rw [hview, if_neg (hs.out_apart hq _).1]
  exact hw.view q hq

theorem Written.keeps {place item s'} (hw : Keeps tree input s)
    (h : Written s (output ++ outBelow below) place item s') : Keeps tree input s' := by
  refine ⟨h.plain, fun q hq => ?_⟩
  obtain ⟨habove, hbelow⟩ := hs.out_apart hq (outBelow below)
  exact (h.view_of_apart habove hbelow).trans (hw.view q hq)

theorem handle_take_view (hw : Keeps tree input w.store)
    (hexists : tree.at? (input ++ below) ≠ none) {action}
    (haction : Takes tree (input ++ below) action)
    (h : Runs (handle config (eventOf input output action below)) w u w') :
    Keeps tree input w'.store ∧
      (∃ content executable, tree.at? (input ++ below) = some (.file content executable)) ∧
      (w.store.at? (output ++ outBelow below) = none → ∃ item,
        Product config tree input below item ∧
        Written w.store (output ++ outBelow below) (output ++ outBelow below) item w'.store) := by
  have hforward := hs.forward_out hw hexists
  have hsource := hw.forward (List.prefix_append _ _) hexists
  have hview := hw.view (input ++ below) (List.prefix_append _ _)
  obtain ⟨front, name, hout⟩ := hs.out_concat below
  rw [eventOf, hout] at h
  rw [hout] at hforward
  cases haction with
  | stub hstubbed =>
    obtain ⟨_, w₁, hsay, hwrite⟩ := runs_bind.1 h
    have hstore := store_of_say hsay
    obtain ⟨content, executable, text, stub, mode, hfile, htext, hstub, hwritten, hmode⟩ :=
      writeStub_ok (hstore ▸ hw.plain) hsource hforward hwrite
    rw [hstore, ← hout] at hwritten hmode
    rw [hstore, hview] at hfile
    refine ⟨hwritten.keeps hs hw, ⟨content, executable, hfile⟩, fun hnone => ?_⟩
    obtain rfl := hmode hnone
    exact ⟨_, .stub hfile hstubbed htext hstub, hwritten⟩
  | copy hcopied =>
    obtain ⟨_, w₁, hsay, hcopy⟩ := runs_bind.1 h
    have hstore := store_of_say hsay
    obtain ⟨place, content, executable, hfile, hwritten⟩ :=
      copyTo_ok (hstore ▸ hw.plain) hsource hforward hcopy
    rw [hstore, ← hout] at hwritten
    rw [hstore, hview] at hfile
    refine ⟨hwritten.keeps hs hw, ⟨content, executable, hfile⟩, fun hnone => ?_⟩
    obtain rfl | ⟨_, hdir⟩ := hwritten.within
    · exact ⟨_, .copy hfile hcopied, hwritten⟩
    · rw [hnone] at hdir
      cases hdir

theorem Progress.clean (hp : Progress config tree input output roots files w.store)
    (hexists : tree.at? (input ++ below) ≠ none)
    (hfiles : ∀ x, files x → ¬ outBelow below <+: outBelow x)
    (h : Runs (handle config (eventOf input output .clean below)) w u w') :
    Progress config tree input output (fun x => roots x ∨ x = below) files w'.store := by
  obtain ⟨hkeeps, hview⟩ := handle_clean_view hs hp.keeps hexists h
  refine ⟨hkeeps, hp.sources, hp.products,
    (hp.effect.clean ?_ hview).congr (fun r => ?_) fun _ _ => Iff.rfl⟩
  · rintro f item ⟨x, hx, _, rfl⟩ hprefix
    rw [List.prefix_append_right_inj] at hprefix
    exact hfiles x hx hprefix
  · constructor
    · rintro (⟨x, hx, rfl⟩ | rfl)
      · exact ⟨x, .inl hx, rfl⟩
      · exact ⟨below, .inr rfl, rfl⟩
    · rintro ⟨x, hx | rfl, rfl⟩
      · exact .inl ⟨x, hx, rfl⟩
      · exact .inr rfl

theorem Progress.take (hp : Progress config tree input output roots files w.store) {root}
    (hroot : roots root) (hbelow : input ++ root <+: input ++ below) (hnew : ¬ files below)
    (hexists : tree.at? (input ++ below) ≠ none) {action}
    (haction : Takes tree (input ++ below) action)
    (h : Runs (handle config (eventOf input output action below)) w u w') :
    Progress config tree input output roots (fun x => files x ∨ x = below) w'.store := by
  obtain ⟨hkeeps, hfile, hmade⟩ := handle_take_view hs hp.keeps hexists haction h
  have hsource : IsSource tree input below := ⟨hfile, action, haction⟩
  have hfree : ∀ x, files x → ¬ outBelow x <+: outBelow below ∧
      ¬ outBelow below <+: outBelow x := by
    intro x hx
    have hne : x ≠ below := fun heq => hnew (heq ▸ hx)
    exact ⟨(hp.sources x hx).out_not_above hs.toOrderly hsource hne,
      hsource.out_not_above hs.toOrderly (hp.sources x hx) hne.symm⟩
  -- nothing is there since the root was cleaned
  have hnone : w.store.at? (output ++ outBelow below) = none := by
    refine hp.effect.swept _ _ ⟨root, hroot, rfl⟩ ?_ ?_
    · exact (List.prefix_append_right_inj _).2 (hs.toOrderly.out_below_root hexists hbelow)
    · rintro f item ⟨x, hx, _, rfl⟩ hle
      exact (hfree x hx).2 ((List.prefix_append_right_inj _).1 hle)
  obtain ⟨item, hproduct, hwritten⟩ := hmade hnone
  have hview : ∀ q, w'.store.at? q = if q = output ++ outBelow below then some item
      else if q <+: output ++ outBelow below then some .dir else w.store.at? q := by
    intro q
    rw [hwritten.view]
    by_cases hq : q = output ++ outBelow below <;> simp [hq]
  have hbefore : ∀ q, q <+: output ++ outBelow below →
      w.store.at? q = none ∨ w.store.at? q = some .dir := by
    intro q hq
    by_cases heq : q = output ++ outBelow below
    · exact .inl (heq ▸ hnone)
    · exact hwritten.before q hq heq
  refine ⟨hkeeps, ?_, ?_, (hp.effect.write ?_ hview hbefore).congr (fun _ => Iff.rfl)
    fun f i => ?_⟩
  · rintro x (hx | rfl)
    · exact hp.sources x hx
    · exact hsource
  · rintro x (hx | rfl)
    · exact hp.products x hx
    · exact ⟨item, hproduct⟩
  · rintro g i ⟨x, hx, _, rfl⟩
    rw [List.prefix_append_right_inj, List.prefix_append_right_inj]
    exact hfree x hx
  · constructor
    · rintro (⟨x, hx, hx', rfl⟩ | ⟨rfl, rfl⟩)
      · exact ⟨x, .inl hx, hx', rfl⟩
      · exact ⟨below, .inr rfl, hproduct, rfl⟩
    · rintro ⟨x, hx | rfl, hx', rfl⟩
      · exact .inl ⟨x, hx, hx', rfl⟩
      · exact .inr ⟨rfl, hx'.unique hproduct⟩

omit hs in
theorem Progress.congr {roots' files' : List String → Prop}
    (hp : Progress config tree input output roots files s) (hroots : ∀ x, roots x ↔ roots' x)
    (hfiles : ∀ x, files x ↔ files' x) : Progress config tree input output roots' files' s := by
  obtain rfl : roots = roots' := funext fun x => propext (hroots x)
  obtain rfl : files = files' := funext fun x => propext (hfiles x)
  exact hp

/-! ## Runs -/

theorem sparing_handle : Sparing tree input output (handle config) := by
  rintro action below w u w' hexists (rfl | htakes) hw h
  · exact (handle_clean_view hs hw hexists h).1
  · exact (handle_take_view hs hw hexists htakes h).1

omit hs in
/-- The run: the events that have been handled are those of roots that were cleaned and of files
that were taken up. -/
theorem Tour.progress {stops front back} (ht : Tour w.store.root input stops)
    (hs : Apart w.store.root input output)
    (hevents : (stops.flatMap fun stop => sectionOf w.store input output stop.1 stop.2)
    = front ++ back) (h : Handled (handle config) w front w') :
    Progress config w.store.root input output (fun x => eventOf input output .clean x ∈ front)
      (fun x => ∃ action ≠ .clean, eventOf input output action x ∈ front) w'.store := by
  have hlist : IsWorkList _ _ output _ := ht.isWorkList hs.toOrderly
  have hsorted := @Tour.clean_sorted _ output _ _ ht
  have hdistinct := hlist.distinct
  rw [List.Nodup, List.pairwise_map, List.pairwise_filter] at hdistinct
  induction h generalizing back with
  | nil =>
    exact ⟨keeps_self hs.plain, by simp, by simp, (Effect.refl _).congr (by simp) (by simp)⟩
  | @snoc done e v u v' _ hhandle ih =>
    rw [List.append_assoc, List.singleton_append] at hevents
    have hp := ih hevents
    have hmem := hevents ▸ List.mem_append_right done List.mem_cons_self
    rw [hevents, List.pairwise_append] at hsorted hdistinct
    by_cases hclean : e.action = .clean
    · obtain ⟨root, hroot, rfl⟩ := hlist.mem_clean.1 ⟨hmem, hclean⟩
      refine (hp.clean hs hroot.isModuleRoot.exists (fun x hx => ?_) hhandle).congr ?_ ?_
      · -- it lies below a root that was cleaned, and this one comes later
        obtain ⟨action, hne, hmem⟩ := id hx
        obtain ⟨before, between, hdone⟩ := List.append_of_mem hmem
        obtain ⟨r, _, _, hr, hbelow, -, hbefore, -⟩ := hlist.placed x action before _ hne
          (by rw [hevents, hdone, List.append_assoc]; rfl)
        have hlt := hsorted.2.2 (eventOf input output .clean r) (by simp [hdone, hbefore]) _
          List.mem_cons_self rfl rfl
        exact (hp.sources x hx).not_below_root hs hr hbelow hroot hlt
      · simp [eventOf_inj]
      · simp [eventOf_inj, and_or_left, exists_or]
    · obtain ⟨x, action, hhas, rfl⟩ := hlist.only e hmem hclean
      rw [eventOf_action] at hclean
      obtain ⟨root, _, _, -, hbelow, -, hdone, -⟩ :=
        hlist.placed x action done back hclean hevents
      obtain ⟨⟨_, _, _, hexists⟩, htakes⟩ := (hasEvent_iff hs.toOrderly).1 hhas
      have hnew : ¬ ∃ action ≠ .clean, eventOf input output action x ∈ done := by
        rintro ⟨action', hne, hmem⟩
        exact hdistinct.2.2 _ hmem _ List.mem_cons_self (decide_eq_true hne)
          (decide_eq_true hclean) rfl
      refine (hp.take hs (by simp [hdone]) hbelow hnew hexists htakes hhandle).congr ?_ ?_
      · simp [eventOf_inj, Ne.symm hclean]
      · simp [eventOf_inj, and_or_left, exists_or, hclean]

end Runs

end Progress

theorem forward_resolveStep {follow : List String → List String → List String} {here names}
    (hplain : s.root.Plain) (hhere : Forward here) : Forward (s.resolveStep follow here names) := by
  induction names generalizing here with
  | nil => exact hhere
  | cons name rest ih =>
    rw [resolveStep]
    split
    · exact ih fun n hn => hhere n (List.mem_of_mem_dropLast hn)
    · next hname =>
      split
      · next target hlink =>
        cases (hplain.find? hlink).1
      · exact ih (forward_append.2 ⟨hhere, forward_single.2 (by simpa using hname)⟩)

theorem forward_resolve {path} (hplain : s.root.Plain) (hcwd : s.at? s.cwd = some .dir) :
    Forward (s.resolve path).names := by
  have hhere : Forward (s.origin path).1 := by
    unfold origin
    split
    · exact nofun
    · exact hplain.forward (by rw [show s.root.at? s.cwd = some .dir from hcwd]; simp)
  exact forward_resolveStep hplain hhere

theorem mapping_of_dir {inputPath outputPath mapping} (hplain : w.store.root.Plain)
    (hdir : w.store.at? (w.store.resolve inputPath).names = some .dir)
    (h : Runs (Mapping.ofPaths inputPath outputPath) w mapping w') :
    mapping = directories (w.store.resolve inputPath).names (w.store.resolve outputPath).names ∧
      w' = w := by
  rw [Mapping.ofPaths, runs_files_bind] at h
  split at h
  · obtain ⟨_, _, hthrow, _⟩ := runs_bind.1 h
    exact absurd hthrow runs_throw
  · simp only [isFile_resolve_of_dir hplain hdir, Bool.false_and, Bool.false_eq_true,
      if_false] at h
    exact runs_pure.1 h

/-- The files after a run: each source has a product, and these are the outputs. At and below the
outputs of the roots there is nothing else, and everywhere else nothing has changed but for
directories that were missing on the way. -/
structure Generated (config : ValidConfig) (input output : List String) (tree tree' : Entry) :
    Prop where
  products : ∀ x, IsSource tree input x → ∃ item, Product config tree input x item
  effect : Effect (fun r => ∃ x, IsRoot tree input (input ++ x) ∧ r = output ++ outBelow x)
    (fun f item => ∃ x, IsSource tree input x ∧ Product config tree input x item ∧
      f = output ++ outBelow x) tree.at? tree'.at?

/-- A run that returns has cleaned the roots and taken up whatever has an event. -/
theorem forEvents_progress {input output done} (hs : Apart w.store.root input output)
    (h : Runs (forEvents (directories input output) (handle config)) w done w') :
    Progress config w.store.root input output
      (fun x => IsRoot w.store.root input (input ++ x))
      (fun x => ∃ action, HasEvent w.store.root input x action) w'.store := by
  obtain ⟨stops, ht, rfl⟩ := forEvents_tour hs.toOrderly (sparing_handle hs) h
  have hlist : IsWorkList _ _ output _ := ht.isWorkList hs.toOrderly
  refine (ht.progress hs (List.append_nil _).symm (forEvents_handled rfl h)).congr (fun x => ?_)
    fun x => ⟨?_, ?_⟩
  · simpa [eventOf_inj] using (@IsWorkList.mem_clean _ _ _ _ (eventOf input output .clean x) hlist)
  · rintro ⟨action, hne, hmem⟩
    obtain ⟨y, action', hhas, heq⟩ := hlist.only _ hmem hne
    obtain ⟨-, rfl⟩ := eventOf_inj.1 heq
    exact ⟨action', hhas⟩
  · rintro ⟨action, hhas⟩
    have hmem := (hlist.once x action hhas).symm ▸ List.mem_singleton_self _
    obtain ⟨hmem, hne⟩ := List.mem_filter.1 hmem
    exact ⟨action, (of_decide_eq_true hne).1, hmem⟩

theorem forEvents_generated {input output done} (hs : Apart w.store.root input output)
    (h : Runs (forEvents (directories input output) (handle config)) w done w') :
    Generated config input output w.store.root w'.store.root := by
  have hp := forEvents_progress hs h
  have hend := hp.congr (fun _ => Iff.rfl) fun x => ⟨hp.sources x, fun hx => by
    obtain ⟨⟨_, _, hfile⟩, action, htakes⟩ := hx
    exact ⟨action, .file hfile htakes⟩⟩
  exact ⟨hend.products, hend.effect⟩

theorem runs_writeStubs {inputPath outputPath done} (hplain : w.store.root.Plain)
    (hdir : w.store.at? (w.store.resolve inputPath).names = some .dir)
    (h : Runs (WorkList.ofPaths inputPath outputPath >>= writeStubs config) w done w') :
    ∃ events, done.found = some events ∧
    Runs (forEvents (directories (w.store.resolve inputPath).names
      (w.store.resolve outputPath).names) (handle config)) w events w' := by
  obtain ⟨work, w₁, hpaths, hwrite⟩ := runs_bind.1 h
  obtain ⟨mapping, w₂, hmapping, hpure⟩ := runs_bind.1 hpaths
  obtain ⟨rfl, rfl⟩ := runs_pure.1 hpure
  obtain ⟨rfl, rfl⟩ := mapping_of_dir hplain hdir hmapping
  obtain ⟨events, w₃, hevents, hdone⟩ := runs_bind.1 hwrite
  obtain ⟨rfl, rfl⟩ := runs_pure.1 hdone
  exact ⟨events, rfl, hevents⟩

/-- **The effect of a generation run.** If a run from a directory to a directory apart from it
returns, then at and below the output of each root there are exactly the products of this run, with
the directories that lead to them. Elsewhere everything is as before, except for directories that
were missing on the way. -/
theorem writeStubs_generated {inputPath outputPath : Path} {done : WorkList}
    (hcwd : w.store.at? w.store.cwd = some .dir)
    (hs : Beside w.store.root (w.store.resolve inputPath).names (w.store.resolve outputPath).names)
    (h : Runs (WorkList.ofPaths inputPath outputPath >>= writeStubs config) w done w') :
    Generated config (w.store.resolve inputPath).names (w.store.resolve outputPath).names
      w.store.root w'.store.root := by
  obtain ⟨_, _, hevents⟩ := runs_writeStubs hs.plain hs.isDir h
  exact forEvents_generated ⟨hs, forward_resolve hs.plain hcwd⟩ hevents

/-! A package in a directory that is none, and an output directory with what an earlier run and
somebody else left there. -/

def sampleInput : Entry :=
  .dir [("ns", .dir [("pkg", .dir [("__init__.py", .file "x: int = 1\n".toUTF8 false)])])]

def sampleOutput : Entry :=
  .dir [("notes", .file .empty false), ("pkg", .dir [("old.pyi", .file .empty false)])]

def sampleTree : Entry :=
  .dir [("in", sampleInput), ("out", .dir [("ns", sampleOutput)])]

def sampleWorkspace : Workspace where
  store := ⟨sampleTree, []⟩
  scratch := .absolute ["tmp"]
  interpreter := ""

def sampleRun (config : ValidConfig) : WorkM WorkList :=
  WorkList.ofPaths (.read "in") (.read "out") >>= writeStubs config

theorem runs_of_any_valid (settings : Config) (w : Workspace)
    (h : settings.validate.toOption.any (fun config =>
      ((sampleRun config).run.run w).1.toOption.any fun _ => true) = true) :
    ∃ config done w', settings.validate = .ok config ∧ Runs (sampleRun config) w done w' := by
  obtain ⟨config, hconfig, hany⟩ := any_toOption_iff.1 h
  obtain ⟨done, w', hrun, -⟩ := any_run_iff.1 hany
  exact ⟨config, done, w', hconfig, hrun⟩

theorem plain_single {name e} (hname : name ≠ "..") (he : e.Plain) :
    (Entry.dir [(name, e)]).Plain :=
  .dir (by simp) (by simpa using hname) (by simpa using he)

theorem sampleTree_plain : sampleTree.Plain := by
  have hinput : sampleInput.Plain :=
    plain_single (by decide) (plain_single (by decide) (plain_single (by decide) .file))
  have hold : (Entry.dir [("old.pyi", .file .empty false)]).Plain := plain_single (by decide) .file
  have houtput : sampleOutput.Plain :=
    .dir (by decide) (by decide) (by simp [hold, Entry.Plain.file])
  have hnamespace : (Entry.dir [("ns", sampleOutput)]).Plain := plain_single (by decide) houtput
  exact .dir (by decide) (by decide) (by simp [hinput, hnamespace])

theorem sampleTree_beside : Beside sampleTree ["in"] ["out"] := by
  refine ⟨⟨sampleTree_plain, rfl, ?_⟩, by decide, by decide⟩
  rintro _ ⟨rest, rfl⟩
  revert rest
  exact forall_dir (by decide) (List.forall_mem_singleton.2 (forall_dir (by decide)
    (List.forall_mem_singleton.2 (forall_dir (by decide)
      (List.forall_mem_singleton.2 forall_dir_file)))))

theorem sampleWorkspace_resolve :
    (sampleWorkspace.store.resolve (.read "in")).names = ["in"] ∧
      (sampleWorkspace.store.resolve (.read "out")).names = ["out"] := by
  decide +kernel

theorem writeStubs_generated_on_sample :
    ∃ config done w', Stub.keepPublic.validate = .ok config ∧ sampleTree.at? [] = some .dir ∧
      Beside sampleTree ["in"] ["out"] ∧ Runs (sampleRun config) sampleWorkspace done w' ∧
      Generated config ["in"] ["out"] sampleTree w'.store.root := by
  obtain ⟨config, done, w', hconfig, hrun⟩ :=
    runs_of_any_valid Stub.keepPublic sampleWorkspace (by decide +kernel)
  obtain ⟨hin, hout⟩ := sampleWorkspace_resolve
  have hgenerated := @writeStubs_generated sampleWorkspace w' config (.read "in") (.read "out") done
    rfl (by rw [hin, hout]; exact sampleTree_beside) hrun
  rw [hin, hout] at hgenerated
  exact ⟨config, done, w', hconfig, rfl, sampleTree_beside, hrun, hgenerated⟩

end TypeStub.Generation
