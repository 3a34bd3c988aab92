import TypeStub.Files.Walk
import TypeStub.Proofs.Files.Operations
import TypeStub.Proofs.Workspace
/-!
# Which places walks visit

A walk looks at directories while its visits change files. If the visits leave the walked tree as it
was (`KeptBy`), the walk visits a list of places that is known beforehand:

* `foldPaths_visits`: everything at or below a place, each once;
* `foldRoots_visits`: the roots of trees of modules at or below a place, in order.

Whatever the visits do, what each of them keeps is kept by the walk (`foldPaths_ends`,
`foldRoots_ends`). If they only look it returns: the roots are found, and each module lies in one of
them (`moduleRoots_partition`).
-/

namespace TypeStub

theorem Path.child_absolute (names : List String) (name : String) :
    (absolute names).child name = absolute (names ++ [name]) := rfl

namespace Files

open TypeStub.WorkM Store

variable {σ : Type} {tree : Entry} {input top place : List String} {name : String}

/-! ## Places that exist -/

theorem Entry.at?_dir_of_below {tree : Entry} {a b} (h : tree.at? (a ++ b) ≠ none)
    (hb : b ≠ []) : tree.at? a = some .dir := by
  by_contra hdir
  exact h (at?_append_eq_none hb hdir)

theorem Entry.at?_ne_none_above {tree : Entry} {a b} (h : tree.at? b ≠ none) (hab : a <+: b) :
    tree.at? a ≠ none := by
  obtain ⟨rest, rfl⟩ := hab
  by_cases hrest : rest = []
  · rwa [hrest, List.append_nil] at h
  · simp [at?_dir_of_below h hrest]

theorem Entry.Plain.forward {tree : Entry} (hplain : tree.Plain) (h : tree.at? place ≠ none) :
    Forward place := by
  obtain ⟨e, he⟩ := Option.ne_none_iff_exists'.1 fun hnone => h (at?_eq_none.2 hnone)
  exact (hplain.find? he).2

theorem Entry.length_le_depth {tree : Entry} (h : tree.at? place ≠ none) :
    place.length ≤ tree.depth := by
  obtain ⟨e, he⟩ := Option.ne_none_iff_exists'.1 fun hnone => h (at?_eq_none.2 hnone)
  have := depth_find? he
  omega

/-- A place at or below another is this place, or it lies below an entry there. -/
theorem prefix_cases (h : top <+: place) : place = top ∨ ∃ name, top ++ [name] <+: place := by
  obtain ⟨rest, rfl⟩ := h
  cases rest with
  | nil => exact .inl (List.append_nil _)
  | cons name more => exact .inr ⟨name, more, by simp⟩

theorem name_unique {n m} (hn : top ++ [n] <+: place) (hm : top ++ [m] <+: place) : n = m := by
  obtain ⟨rest, rfl⟩ := hn
  rw [List.append_assoc, List.prefix_append_right_inj] at hm
  simpa using (List.cons_prefix_cons.1 hm).1.symm

theorem ne_of_name_ne {n m q q'} (h : n ≠ m) (hn : top ++ [n] <+: q) (hm : top ++ [m] <+: q') :
    q ≠ q' := by
  rintro rfl
  exact h (name_unique hn hm)

theorem lt_of_name_lt {n m q q'} (h : n < m) (hn : top ++ [n] <+: q) (hm : top ++ [m] <+: q') :
    q < q' := by
  obtain ⟨_, rfl⟩ := hn
  obtain ⟨_, rfl⟩ := hm
  simp only [List.append_assoc]
  exact List.append_left_lt (List.cons_lt_cons_iff.2 (.inl h))

/-! ## What stays as it was -/

/-- The files are a plain tree, and at and below the input they are seen as they were. -/
structure Keeps (tree : Entry) (input : List String) (s : Store) : Prop where
  plain : s.root.Plain
  view : ∀ q, input <+: q → s.at? q = tree.at? q

namespace Keeps

variable {s : Store} (hs : Keeps tree input s) (htop : input <+: top)
include hs htop

theorem forward (h : tree.at? top ≠ none) : Forward top :=
  hs.plain.forward (by rw [← hs.view top htop] at h; exact h)

theorem isDir (hforward : Forward top) :
    s.isDir (.absolute top) = true ↔ tree.at? top = some .dir := by
  rw [isDir_absolute hs.plain hforward, hs.view top htop]

theorem isFile (hforward : Forward top) : s.isFile (.absolute top) = true ↔
      ∃ content executable, tree.at? top = some (.file content executable) := by
  rw [isFile_absolute hs.plain hforward, hs.view top htop]

theorem pathExists (hforward : Forward top) :
    s.pathExists (.absolute top) = true ↔ tree.at? top ≠ none := by
  rw [pathExists_absolute hs.plain hforward, ← hs.view top htop, ne_eq, Entry.at?_eq_none,
    Option.isSome_iff_ne_none]

theorem list (hdir : tree.at? top = some .dir) :
    ∃ names, s.list (.absolute top) = .ok names ∧ names.Pairwise (· < ·) ∧
      ∀ name, name ∈ names ↔ tree.at? (top ++ [name]) ≠ none := by
  obtain ⟨entries, hentries⟩ := Entry.at?_eq_dir.1 ((hs.view top htop).trans hdir)
  obtain ⟨hplain, hforward⟩ := hs.plain.find? hentries
  refine ⟨_, list_dir hs.plain hforward hentries, hplain.names_sorted, fun name => ?_⟩
  have hview := hs.view (top ++ [name]) (htop.trans (List.prefix_append _ _))
  rw [Entry.mem_names, ← hview, ne_eq, Entry.at?_eq_none, Entry.find?_concat, hentries,
    Option.bind_some, Option.isSome_iff_ne_none]

theorem partition (hdir : tree.at? top = some .dir) :
    ∃ names dirs others, s.list (.absolute top) = .ok names ∧
      names.partition (fun name => s.isDir ((Path.absolute top).child name)) = (dirs, others) ∧
      dirs.Pairwise (· < ·) ∧ others.Pairwise (· < ·) ∧
      (∀ name, name ∈ dirs ↔ tree.at? (top ++ [name]) = some .dir) ∧
      ∀ name, name ∈ others ↔
        tree.at? (top ++ [name]) ≠ none ∧ tree.at? (top ++ [name]) ≠ some .dir := by
  obtain ⟨names, hlist, hsorted, hnames⟩ := hs.list htop hdir
  have hisDir : ∀ name ∈ names, (s.isDir ((Path.absolute top).child name) = true ↔
      tree.at? (top ++ [name]) = some .dir) := fun name hname =>
    have hchild := htop.trans (List.prefix_append _ _)
    hs.isDir hchild (hs.forward hchild ((hnames name).1 hname))
  refine ⟨names, _, _, hlist, List.partition_eq_filter_filter, hsorted.filter _, hsorted.filter _,
    fun name => ?_, fun name => ?_⟩
  · rw [List.mem_filter]
    constructor
    · rintro ⟨hname, hdir⟩
      exact (hisDir name hname).1 hdir
    · intro hdir
      have hname := (hnames name).2 (by simp [hdir])
      exact ⟨hname, (hisDir name hname).2 hdir⟩
  · rw [List.mem_filter, ← hnames name]
    refine and_congr_right fun hname => ?_
    simp [← hisDir name hname]

end Keeps

/-- Visits that leave the input as it was. -/
def KeptBy (tree : Entry) (input : List String) (visit : Visit σ) : Prop :=
  ∀ {s : σ} {place : List String} {w : Workspace} {a : σ} {w' : Workspace}, input <+: place →
    tree.at? place ≠ none → Keeps tree input w.store →
    Runs (visit s (.absolute place)) w a w' → Keeps tree input w'.store

/-! ## Visiting one place after the other -/

def visitAll (visit : Visit σ) (s : σ) (places : List (List String)) : WorkM σ :=
  places.foldlM (fun s place => visit s (.absolute place)) s

variable {visit : Visit σ} {s a b : σ} {w w' w₁ : Workspace}
  {order : List String → List String → Prop} {wanted more : List String → Prop}

theorem runs_visitAll_nil : Runs (visitAll visit s []) w a w' ↔ a = s ∧ w' = w :=
  runs_pure

theorem runs_visitAll_cons {places} : Runs (visitAll visit s (place :: places)) w b w' ↔
      ∃ a w₁, Runs (visit s (.absolute place)) w a w₁ ∧
      Runs (visitAll visit a places) w₁ b w' := by
  rw [visitAll, List.foldlM_cons, runs_bind]
  rfl

theorem runs_visitAll_append {places others} : Runs (visitAll visit s (places ++ others)) w b w' ↔
      ∃ a w₁, Runs (visitAll visit s places) w a w₁ ∧
      Runs (visitAll visit a others) w₁ b w' := by
  rw [visitAll, List.foldlM_append, runs_bind]
  rfl

/-- A command visits exactly certain places, each before those that come after it in an order, and
the input stays as it was. -/
def Visits (tree : Entry) (input : List String) (visit : Visit σ)
    (order : List String → List String → Prop) (wanted : List String → Prop) (s : σ)
    (w : Workspace) (a : σ) (w' : Workspace) : Prop :=
  Keeps tree input w'.store ∧ ∃ places : List (List String), places.Pairwise order ∧
    (∀ q, q ∈ places ↔ wanted q) ∧ Runs (visitAll visit s places) w a w'

namespace Visits

theorem none (hw : Keeps tree input w.store) (hwanted : ∀ q, ¬ wanted q) :
    Visits tree input visit order wanted s w s w :=
  ⟨hw, [], .nil, fun q => by simp [hwanted q], runs_visitAll_nil.2 ⟨rfl, rfl⟩⟩

theorem one (hvisit : KeptBy tree input visit) (hplace : input <+: place)
    (hexists : tree.at? place ≠ .none)
    (hw : Keeps tree input w.store) (hwanted : ∀ q, wanted q ↔ q = place)
    (h : Runs (visit s (.absolute place)) w a w') : Visits tree input visit order wanted s w a w' :=
  ⟨hvisit hplace hexists hw h, [place], List.pairwise_singleton _ _, fun q => by simp [hwanted q],
    runs_visitAll_cons.2 ⟨a, w', h, runs_visitAll_nil.2 ⟨rfl, rfl⟩⟩⟩

theorem append (h : Visits tree input visit order wanted s w a w₁)
    (h' : Visits tree input visit order more a w₁ b w')
    (horder : ∀ q q', wanted q → more q' → order q q') :
    Visits tree input visit order (fun q => wanted q ∨ more q) s w b w' := by
  obtain ⟨-, places, hpairwise, hplaces, hruns⟩ := h
  obtain ⟨hw, others, hpairwise', hothers, hruns'⟩ := h'
  refine ⟨hw, places ++ others, List.pairwise_append.2 ⟨hpairwise, hpairwise',
    fun q hq q' hq' => ?_⟩,
    fun q => by simp [hplaces, hothers], runs_visitAll_append.2 ⟨a, w₁, hruns, hruns'⟩⟩
  exact horder q q' ((hplaces q).1 hq) ((hothers q').1 hq')

theorem congr (h : Visits tree input visit order wanted s w a w')
    (hwanted : ∀ q, wanted q ↔ more q) : Visits tree input visit order more s w a w' := by
  obtain ⟨hw, places, hpairwise, hplaces, hruns⟩ := h
  exact ⟨hw, places, hpairwise, fun q => (hplaces q).trans (hwanted q), hruns⟩

/-- A loop over names in a directory, of which each is responsible for places of its own. -/
theorem foldlM (top : List String) {before : String → String → Prop}
    (horder : ∀ {n m q q'}, before n m → top ++ [n] <+: q → top ++ [m] <+: q' → order q q')
    {walk : σ → String → WorkM σ} {wantedAt : String → List String → Prop}
    {names : List String} (hsorted : names.Pairwise before)
    (hwanted : ∀ name ∈ names, ∀ q, wantedAt name q → top ++ [name] <+: q)
    (hwalk : ∀ name ∈ names, ∀ s w a w', Keeps tree input w.store →
      Runs (walk s name) w a w' → Visits tree input visit order (wantedAt name) s w a w')
    (hw : Keeps tree input w.store) (h : Runs (names.foldlM walk s) w a w') :
    Visits tree input visit order (fun q => ∃ name ∈ names, wantedAt name q) s w a w' := by
  induction names generalizing s w with
  | nil =>
    obtain ⟨rfl, rfl⟩ := runs_pure.1 h
    exact .none hw (by simp)
  | cons name rest ih =>
    rw [List.foldlM_cons] at h
    obtain ⟨a₁, w₁, hname, hrest⟩ := runs_bind.1 h
    obtain ⟨hwalkName, hwalk⟩ := List.forall_mem_cons.1 hwalk
    obtain ⟨hwantedName, hwanted⟩ := List.forall_mem_cons.1 hwanted
    obtain ⟨hbefore, hsorted⟩ := List.pairwise_cons.1 hsorted
    have hfirst := hwalkName s w a₁ w₁ hw hname
    refine (hfirst.append (ih hsorted hwanted hwalk hfirst.1 hrest) ?_).congr (by simp)
    rintro q q' hq ⟨m, hm, hq'⟩
    exact horder (hbefore m hm) (hwantedName q hq) (hwanted m hm q' hq')

end Visits

/-! ## Everything below a place -/

theorem place_ne_of_lt {q q' : List String} (h : q < q') : q ≠ q' := by
  rintro rfl
  exact List.lt_irrefl q h

theorem below_iff {q} (hdir : tree.at? top = some .dir) : top <+: q ∧ tree.at? q ≠ none ↔
      (q = top ∨ ∃ name, (tree.at? (top ++ [name]) ≠ none ∧
        tree.at? (top ++ [name]) ≠ some .dir) ∧ q = top ++ [name]) ∨
      ∃ name, tree.at? (top ++ [name]) = some .dir ∧ top ++ [name] <+: q ∧
      tree.at? q ≠ none := by
  constructor
  · rintro ⟨hq, hexists⟩
    obtain rfl | ⟨name, hname⟩ := prefix_cases hq
    · exact .inl (.inl rfl)
    by_cases hnameDir : tree.at? (top ++ [name]) = some .dir
    · exact .inr ⟨name, hnameDir, hname, hexists⟩
    obtain ⟨rest, rfl⟩ := hname
    by_cases hrest : rest = []
    · subst hrest
      rw [List.append_nil] at hexists ⊢
      exact .inl (.inr ⟨name, ⟨hexists, hnameDir⟩, rfl⟩)
    · exact absurd (Entry.at?_dir_of_below hexists hrest) hnameDir
  · rintro ((rfl | ⟨name, ⟨hexists, _⟩, rfl⟩) | ⟨name, _, hq, hexists⟩)
    · exact ⟨List.prefix_refl _, by simp [hdir]⟩
    · exact ⟨List.prefix_append _ _, hexists⟩
    · exact ⟨(List.prefix_append _ _).trans hq, hexists⟩

theorem foldTree_visits (hvisit : KeptBy tree input visit) {fuel : Nat} (htop : input <+: top)
    (hdir : tree.at? top = some .dir)
    (hfuel : ∀ q, top <+: q → tree.at? q ≠ none → q.length < top.length + fuel)
    (hw : Keeps tree input w.store) (h : Runs (foldTree visit fuel s (.absolute top)) w a w') :
    Visits tree input visit (· ≠ ·) (fun q => top <+: q ∧ tree.at? q ≠ none) s w a w' := by
  induction fuel generalizing top s w a w' with
  | zero =>
    have := hfuel top (List.prefix_refl _) (by simp [hdir])
    omega
  | succ fuel ih =>
    obtain ⟨names, dirs, others, hlist, hpartition, hsortedDirs, hsortedOthers, hmemDirs,
      hmemOthers⟩ := hw.partition htop hdir
    have hchild : ∀ name, input <+: top ++ [name] := fun name =>
      htop.trans (List.prefix_append _ _)
    rw [foldTree, runs_get_bind, hlist] at h
    simp only [hpartition] at h
    have hperm := w.order.perm (.absolute top) dirs
    obtain ⟨s₁, w₁, hfirst, h⟩ := runs_bind.1 h
    obtain ⟨s₂, w₂, hothers, hdirs⟩ := runs_bind.1 h
    have hvisitsTop : Visits tree input visit (· ≠ ·) (· = top) s w s₁ w₁ :=
      .one hvisit htop (by simp [hdir]) hw (fun _ => Iff.rfl) hfirst
    have hvisitsOthers : Visits tree input visit (· ≠ ·) (fun q =>
      ∃ name ∈ others, q = top ++ [name])
        s₁ w₁ s₂ w₂ := by
      refine .foldlM top ne_of_name_ne (hsortedOthers.imp String.ne_of_lt) ?_ ?_
        hvisitsTop.1 hothers
      · rintro name _ q rfl
        exact List.prefix_refl _
      · intro name hname _ _ _ _ hw hrun
        exact .one hvisit (hchild name) ((hmemOthers name).1 hname).1 hw (fun _ => Iff.rfl) hrun
    have hvisitsDirs : Visits tree input visit (· ≠ ·) (fun q => ∃ name ∈
        w.order.arrange (.absolute top) dirs, top ++ [name] <+: q ∧
        tree.at? q ≠ none) s₂ w₂ a w' := by
      refine .foldlM top ne_of_name_ne (hperm.nodup_iff.2 (hsortedDirs.imp String.ne_of_lt))
        (fun _ _ _ => And.left) ?_ hvisitsOthers.1 hdirs
      intro name hname s w a w' hw hrun
      have hnameDir := (hmemDirs name).1 (hperm.mem_iff.1 hname)
      have hforward := hw.forward (hchild name) (by simp [hnameDir])
      rw [runs_files_bind, Path.child_absolute, isLink_absolute hw.plain hforward] at hrun
      refine ih (hchild name) hnameDir (fun q hq hexists => ?_) hw hrun
      have := hfuel q ((List.prefix_append _ _).trans hq) hexists
      simp only [List.length_append, List.length_singleton]
      omega
    refine ((hvisitsTop.append hvisitsOthers ?_).append hvisitsDirs ?_).congr fun q => ?_
    · rintro q _ rfl ⟨name, _, rfl⟩
      simp
    · rintro q q' (rfl | ⟨name, hname, rfl⟩) ⟨m, hm, hq', _⟩ rfl
      · exact not_concat_above hq'
      · -- a name stands for a directory or for something else
        obtain rfl := name_unique (List.prefix_refl _) hq'
        exact ((hmemOthers name).1 hname).2 ((hmemDirs name).1 (hperm.mem_iff.1 hm))
    · simp only [below_iff hdir, hperm.mem_iff, hmemDirs, hmemOthers]

theorem foldTree_file {fuel} (hw : Keeps tree input w.store) (htop : input <+: top)
    (hforward : Forward top) (hfile : tree.at? top ≠ some .dir)
    (h : Runs (foldTree visit fuel s (.absolute top)) w a w') : a = s ∧ w' = w := by
  cases fuel with
  | zero => exact runs_pure.1 h
  | succ fuel =>
    rw [foldTree, runs_get_bind] at h
    cases hlist : w.store.list (.absolute top) with
    | error fault =>
      rw [hlist] at h
      exact runs_pure.1 h
    | ok names =>
      obtain ⟨entries, hentries, _⟩ := list_of_ok hw.plain hforward hlist
      have hdir : w.store.at? top = some .dir := Entry.at?_eq_dir.2 ⟨entries, hentries⟩
      exact absurd ((hw.view top htop).symm.trans hdir) hfile

theorem runs_walkDepth {fuel} :
    Runs walkDepth w fuel w' ↔ fuel = (w.store.root.depth + 2) * (w.store.root.depth + 2) ∧
    w' = w := by
  rw [walkDepth, runs_files_bind, runs_pure]

theorem Keeps.length_lt {s : Store} (hs : Keeps tree input s) (htop : input <+: top)
    {q : List String} (hq : top <+: q) (hexists : tree.at? q ≠ none) :
    q.length < top.length + (s.root.depth + 2) * (s.root.depth + 2) := by
  have hdepth : q.length ≤ s.root.depth := Entry.length_le_depth (by
    rw [← hs.view q (htop.trans hq)] at hexists
    exact hexists)
  have hsquare : s.root.depth + 2 ≤ (s.root.depth + 2) * (s.root.depth + 2) := Nat.le_mul_self _
  omega

/-- A walk through everything at or below a place visits each place once. -/
theorem foldPaths_visits (hvisit : KeptBy tree input visit) (htop : input <+: top)
    (hexists : tree.at? top ≠ none) (hw : Keeps tree input w.store)
    (h : Runs (foldPaths visit s (.absolute top)) w a w') :
    Visits tree input visit (· ≠ ·) (fun q => top <+: q ∧ tree.at? q ≠ none) s w a w' := by
  have hforward := hw.forward htop hexists
  have hthere : (!w.store.pathExists (.absolute top)) = false := by
    rw [(hw.pathExists htop hforward).2 hexists]
    rfl
  rw [foldPaths, runs_files_bind, hthere] at h
  simp only [Bool.false_eq_true, if_false, pure_bind, runs_files_bind] at h
  by_cases hdir : tree.at? top = some .dir
  · have hnotFile : ¬ w.store.isFile (.absolute top) = true := by
      rw [hw.isFile htop hforward, hdir]
      simp
    rw [if_neg hnotFile] at h
    obtain ⟨fuel, _, hfuel, h⟩ := runs_bind.1 h
    obtain ⟨rfl, rfl⟩ := runs_walkDepth.1 hfuel
    exact foldTree_visits hvisit htop hdir (fun q hq => hw.length_lt htop hq) hw h
  · have hfile : w.store.isFile (.absolute top) = true := by
      rw [hw.isFile htop hforward, ← hw.view top htop]
      rw [← hw.view top htop] at hdir hexists
      exact ((hw.plain.at?_cases top).resolve_left hexists).resolve_left hdir
    rw [if_pos hfile] at h
    obtain ⟨s₁, w₁, hfirst, h⟩ := runs_bind.1 h
    obtain ⟨_, _, hfuel, h⟩ := runs_bind.1 h
    obtain ⟨rfl, rfl⟩ := runs_walkDepth.1 hfuel
    obtain ⟨rfl, rfl⟩ := foldTree_file (hvisit htop hexists hw hfirst) htop hforward hdir h
    refine .one hvisit htop hexists hw (fun q => ⟨?_, ?_⟩) hfirst
    · rintro ⟨hq, hthere⟩
      obtain rfl | ⟨name, hname⟩ := prefix_cases hq
      · rfl
      · exact absurd (Entry.at?_dir_of_below (Entry.at?_ne_none_above hthere hname)
          (List.cons_ne_nil _ _)) hdir
    · rintro rfl
      exact ⟨List.prefix_refl _, hexists⟩

/-! ## Roots of trees of modules -/

/-- A package, or a module of its own. -/
def IsModuleRoot (tree : Entry) (place : List String) : Prop :=
  tree.at? (place ++ ["__init__.py"]) ≠ none ∨
    (∃ content executable, tree.at? place = some (.file content executable)) ∧
      isModulePath (.absolute place) = true

/-- The root of a tree of modules at or below a place: it lies in no other one. -/
structure IsRoot (tree : Entry) (top place : List String) : Prop where
  below : top <+: place
  isModuleRoot : IsModuleRoot tree place
  outermost : ∀ q, top <+: q → q <+: place → IsModuleRoot tree q → q = place

theorem IsModuleRoot.exists (h : IsModuleRoot tree place) : tree.at? place ≠ none := by
  obtain h | ⟨⟨_, _, h⟩, _⟩ := h
  · exact Entry.at?_ne_none_above h (List.prefix_append _ _)
  · simp [h]

theorem isModuleRoot_iff {s} (hs : Keeps tree input s) (htop : input <+: top)
    (hforward : Forward top) : isModuleRoot s (.absolute top) = true ↔ IsModuleRoot tree top := by
  have hinit : Forward (top ++ ["__init__.py"]) :=
    forward_append.2 ⟨hforward, forward_single.2 (by decide)⟩
  have hpackage : tree.at? (top ++ ["__init__.py"]) ≠ none → tree.at? top = some .dir :=
    fun h =>
    Entry.at?_dir_of_below h (List.cons_ne_nil _ _)
  rw [isModuleRoot, IsModuleRoot, Bool.or_eq_true, Bool.and_eq_true, Bool.and_eq_true,
    hs.isDir htop hforward, hs.isFile htop hforward, Path.child_absolute,
    hs.pathExists (htop.trans (List.prefix_append _ _)) hinit]
  rw [and_iff_right_of_imp hpackage]

theorem isRoot_of_isModuleRoot (h : IsModuleRoot tree top) :
    IsRoot tree top place ↔ place = top := by
  constructor
  · intro hroot
    exact (hroot.outermost top (List.prefix_refl _) hroot.below h).symm
  · rintro rfl
    exact ⟨List.prefix_refl _, h, fun q htop hq _ => hq.eq_of_length_le htop.length_le⟩

theorem isRoot_of_not_isModuleRoot (h : ¬ IsModuleRoot tree top) :
    IsRoot tree top place ↔ ∃ name, IsRoot tree (top ++ [name]) place := by
  constructor
  · intro hroot
    obtain rfl | ⟨name, hname⟩ := prefix_cases hroot.below
    · exact absurd hroot.isModuleRoot h
    · exact ⟨name, hname, hroot.isModuleRoot, fun q hq =>
        hroot.outermost q ((List.prefix_append _ _).trans hq)⟩
  · rintro ⟨name, hroot⟩
    refine ⟨(List.prefix_append _ _).trans hroot.below, hroot.isModuleRoot, fun q hq hplace hq' =>
      ?_⟩
    obtain rfl | ⟨m, hm⟩ := prefix_cases hq
    · exact absurd hq' h
    · obtain rfl := name_unique (hm.trans hplace) hroot.below
      exact hroot.outermost q hm hplace hq'

theorem exists_isRoot (htop : top <+: place) (h : IsModuleRoot tree place) :
    ∃ root, IsRoot tree top root ∧ root <+: place := by
  obtain ⟨rest, rfl⟩ := htop
  induction rest generalizing top with
  | nil =>
    rw [List.append_nil] at h ⊢
    exact ⟨top, (isRoot_of_isModuleRoot h).2 rfl, List.prefix_refl _⟩
  | cons name rest ih =>
    by_cases hroot : IsModuleRoot tree top
    · exact ⟨top, (isRoot_of_isModuleRoot hroot).2 rfl, List.prefix_append _ _⟩
    · rw [List.append_cons] at h ⊢
      obtain ⟨root, hbelow, hprefix⟩ := ih h
      exact ⟨root, (isRoot_of_not_isModuleRoot hroot).2 ⟨name, hbelow⟩, hprefix⟩

theorem IsRoot.unique_above {q q'} (h : IsRoot tree top q) (h' : IsRoot tree top q')
    (hq : q <+: place) (hq' : q' <+: place) : q = q' := by
  obtain hle | hle := List.prefix_or_prefix_of_prefix hq hq'
  · exact h'.outermost q h.below hle h.isModuleRoot
  · exact (h.outermost q' h'.below hle h'.isModuleRoot).symm

/-- A walk through the roots of trees of modules visits them in order. -/
theorem foldRoots_visits (hvisit : KeptBy tree input visit) {fuel} (htop : input <+: top)
    (hexists : tree.at? top ≠ none)
    (hfuel : ∀ q, top <+: q → tree.at? q ≠ none → q.length < top.length + fuel)
    (hw : Keeps tree input w.store) (h : Runs (foldRoots visit fuel s (.absolute top)) w a w') :
    Visits tree input visit (· < ·) (IsRoot tree top) s w a w' := by
  induction fuel generalizing top s w a w' with
  | zero =>
    have := hfuel top (List.prefix_refl _) hexists
    omega
  | succ fuel ih =>
    have hforward := hw.forward htop hexists
    rw [foldRoots, runs_files_bind] at h
    split at h
    · next hroot =>
      rw [isModuleRoot_iff hw htop hforward] at hroot
      exact .one hvisit htop hexists hw (fun q => isRoot_of_isModuleRoot hroot) h
    next hroot =>
    rw [isModuleRoot_iff hw htop hforward] at hroot
    split at h
    · next hdir =>
      rw [hw.isDir htop hforward] at hdir
      obtain ⟨names, hlist, hsorted, hnames⟩ := hw.list htop hdir
      obtain ⟨_, _, hlook, h⟩ := runs_bind.1 h
      obtain ⟨hfound, rfl⟩ := runs_look.1 hlook
      obtain rfl := Except.ok.inj (hlist.symm.trans hfound)
      refine (Visits.foldlM top lt_of_name_lt hsorted
        (fun name _ q (hq : IsRoot tree (top ++ [name]) q) => hq.below) ?_ hw h).congr fun q => ?_
      · intro name hname s w a w' hw hrun
        refine ih (htop.trans (List.prefix_append _ _)) ((hnames name).1 hname)
          (fun q hq hthere => ?_) hw hrun
        have := hfuel q ((List.prefix_append _ _).trans hq) hthere
        simp only [List.length_append, List.length_singleton]
        omega
      · rw [isRoot_of_not_isModuleRoot hroot]
        refine exists_congr fun name => and_iff_right_of_imp fun hq => (hnames name).2 ?_
        exact Entry.at?_ne_none_above hq.isModuleRoot.exists hq.below
    · next hdir =>
      -- nothing is below a file
      rw [hw.isDir htop hforward] at hdir
      obtain ⟨rfl, rfl⟩ := runs_pure.1 h
      refine .none hw fun q hq => ?_
      rw [isRoot_of_not_isModuleRoot hroot] at hq
      obtain ⟨name, hq⟩ := hq
      exact hdir (Entry.at?_dir_of_below
        (Entry.at?_ne_none_above hq.isModuleRoot.exists hq.below) (List.cons_ne_nil _ _))

/-! ## Walks that may fail -/

section Ending

variable {I : σ → Workspace → Prop} {E : Workspace → Prop} {here : List String → Prop}

/-- Visits of certain places keep an invariant, or they fail in a certain way. -/
def Preserves (I : σ → Workspace → Prop) (E : Workspace → Prop) (here : List String → Prop)
    (visit : Visit σ) : Prop :=
  ∀ s place w, here place → I s w → Ends I E (visit s (.absolute place)) w

/-- What is in a directory at such a place is at such a place, too. -/
def Leads (I : σ → Workspace → Prop) (here : List String → Prop) : Prop :=
  ∀ ⦃s w place names⦄, I s w → here place → w.store.list (.absolute place) = .ok names →
    ∀ name ∈ names, here (place ++ [name])

theorem foldTree_ends (hleads : Leads I here) (hvisit : Preserves I E here visit) (fuel : Nat) :
    Preserves I E here (foldTree visit fuel) := by
  induction fuel with
  | zero => exact fun s place w _ h => ends_pure h
  | succ fuel ih =>
    intro s place w hplace h
    rw [foldTree]
    refine ends_get_bind ?_
    split
    · exact ends_pure h
    · next names hlist =>
      have hchild := hleads h hplace hlist
      rw [List.partition_eq_filter_filter]
      refine (hvisit s place w hplace h).bind fun s₁ w₁ h₁ => ?_
      refine (ends_foldlM (fun s name hname w h => ?_) s₁ h₁).bind fun s₂ w₂ h₂ =>
        ends_foldlM (fun s name hname w h => ?_) s₂ h₂
      · exact hvisit s _ w (hchild name (List.mem_of_mem_filter hname)) h
      · have hname := (Workspace.order _).perm _ _ |>.mem_iff.1 hname
        refine ends_files_bind ?_
        split
        · exact ends_pure h
        · exact ih s _ w (hchild name (List.mem_of_mem_filter hname)) h

theorem ends_walkDepth_bind {f : Nat → WorkM σ} (h : ∀ depth, Ends I E (f depth) w) :
    Ends I E (walkDepth >>= f) w :=
  h _

theorem foldPaths_ends (hleads : Leads I here) (hvisit : Preserves I E here visit)
    (hplace : here place)
    (h : I s w) (hthere : w.store.pathExists (.absolute place) = true ∨ E w) :
    Ends I E (foldPaths visit s (.absolute place)) w := by
  have htree :
    ∀ s w, I s w → Ends I E (do foldTree visit (← walkDepth) s (.absolute place)) w :=
    fun s w h => ends_walkDepth_bind fun depth =>
    foldTree_ends hleads hvisit depth s place w hplace h
  rw [foldPaths]
  refine ends_files_bind ?_
  split
  · next hgone =>
    refine Ends.bind (ends_throw (hthere.resolve_left ?_)) fun _ _ => False.elim
    simpa using hgone
  · refine ends_files_bind ?_
    dsimp only
    split
    · exact (hvisit s place w hplace h).bind htree
    · rw [pure_bind]
      exact htree s w h

theorem list_of_isDir {s : Store} {p} (h : s.isDir p = true) : ∃ names, s.list p = .ok names := by
  unfold Store.isDir entry? at h
  unfold Store.list
  cases hlocate : s.locate p true with
  | error fault => simp [hlocate, Except.toOption] at h
  | ok x =>
    obtain ⟨place, e⟩ := x
    cases e with
    | dir entries => exact ⟨_, rfl⟩
    | file content executable | link target => simp [hlocate, Except.toOption, Entry.isDir] at h

theorem foldRoots_ends (hleads : Leads I here) (hvisit : Preserves I E here visit) (fuel : Nat) :
    Preserves I E here (foldRoots visit fuel) := by
  induction fuel with
  | zero =>
    intro s place w hplace h
    rw [foldRoots]
    refine ends_files_bind ?_
    split
    · exact hvisit s place w hplace h
    · split <;> exact ends_pure h
  | succ fuel ih =>
    intro s place w hplace h
    rw [foldRoots]
    refine ends_files_bind ?_
    split
    · exact hvisit s place w hplace h
    · split
      · next hdir =>
        obtain ⟨names, hlist⟩ := list_of_isDir hdir
        have hlook :
          Ends (fun found v => found = names ∧ v = w) E (look (·.list (.absolute place))) w :=
          ends_of_runs (runs_look.2 ⟨hlist, rfl⟩) ⟨rfl, rfl⟩
        refine hlook.bind ?_
        rintro _ _ ⟨rfl, rfl⟩
        exact ends_foldlM (fun s name hname w h' =>
          ih s _ w (hleads h hplace hlist name hname) h') s h
      · exact ends_pure h

theorem exists_of_list {s : Store} {names} (hplain : s.root.Plain) (hplace : Forward place)
    (h : s.list (.absolute place) = .ok names) (hname : name ∈ names) :
    s.at? (place ++ [name]) ≠ none := by
  obtain ⟨entries, hentries, rfl⟩ := list_of_ok hplain hplace h
  obtain ⟨child, hchild⟩ := Option.isSome_iff_exists.1 (Entry.mem_names.1 hname)
  have hfind : s.root.find? (place ++ [name]) = some child := by
    rw [Entry.find?_concat, hentries, Option.bind_some, hchild]
  rw [ne_eq, Entry.at?_eq_none, hfind]
  simp

end Ending

/-! ## The roots that are found -/

theorem runs_visitAll_collect {found paths : List Path} {places} :
    Runs (visitAll collect found places) w paths w' ↔
      paths = found ++ places.map .absolute ∧ w' = w := by
  induction places generalizing found with
  | nil => simp [runs_visitAll_nil]
  | cons place rest ih => simp [runs_visitAll_cons, collect, ih]

/-- A module, a stub, or the marker of a typed package. -/
def IsModuleFile (tree : Entry) (place : List String) : Prop :=
  (∃ content executable, tree.at? place = some (.file content executable)) ∧
    ((Path.absolute place).suffix = ".py" ∨ (Path.absolute place).suffix = ".pyi" ∨
      (Path.absolute place).name = "py.typed")

theorem IsModuleFile.isModuleRoot (h : IsModuleFile tree place) : IsModuleRoot tree place :=
  .inr ⟨h.1, by simpa [isModulePath, or_assoc] using h.2⟩

theorem IsModuleRoot.package_or_file (h : IsModuleRoot tree place) :
    (tree.at? place = some .dir ∧ tree.at? (place ++ ["__init__.py"]) ≠ none) ∨
      IsModuleFile tree place := by
  obtain hinit | ⟨hfile, hname⟩ := h
  · exact .inl ⟨Entry.at?_dir_of_below hinit (List.cons_ne_nil _ _), hinit⟩
  · exact .inr ⟨hfile, by simpa [isModulePath, or_assoc] using hname⟩

/-- **The roots divide the modules among them.** In a tree without symbolic links, the roots at or
below a place are found. None lies in another one, each is a package or a module of its own, and
each module lies in one of them. -/
theorem moduleRoots_partition (hplain : w.store.root.Plain) (htop : w.store.at? top ≠ none) :
    ∃ roots : List (List String), Runs (moduleRoots (.absolute top)) w (roots.map .absolute) w ∧
      roots.Nodup ∧ (∀ a ∈ roots, ∀ b ∈ roots, a ≠ b → ¬ a <+: b) ∧
      (∀ root ∈ roots, top <+: root ∧
        ((w.store.at? root = some .dir ∧ w.store.at? (root ++ ["__init__.py"]) ≠ none) ∨
          IsModuleFile w.store.root root)) ∧
      ∀ place, top <+: place → IsModuleFile w.store.root place →
        ∃ root ∈ roots, root <+: place ∧ ∀ other ∈ roots, other <+: place →
        other = root := by
  have hw : Keeps w.store.root top w.store := ⟨hplain, fun _ _ => rfl⟩
  have hkept : KeptBy w.store.root top collect := fun {s place v a v'} _ _ hv h => by
    obtain ⟨-, rfl⟩ := runs_pure.1 h
    exact hv
  have hends : Ends (fun _ v => v = w) (fun _ => False) (moduleRoots (.absolute top)) w := by
    have hcollect : Preserves (fun _ v => v = w) (fun _ => False) (fun _ => True) collect :=
      fun _ _ _ _ h => ends_pure h
    exact ends_walkDepth_bind fun fuel => foldRoots_ends (fun _ _ _ _ _ _ _ _ _ => trivial) hcollect
      fuel [] top w trivial rfl
  obtain ⟨found, _, hruns, rfl⟩ := hends.returns
  obtain ⟨_, _, hfuel, hfound⟩ := runs_bind.1 hruns
  obtain ⟨rfl, rfl⟩ := runs_walkDepth.1 hfuel
  obtain ⟨-, roots, hsorted, hroots, hvisits⟩ :=
    foldRoots_visits hkept (List.prefix_refl _) htop
    (fun q hq => hw.length_lt (List.prefix_refl _) hq) hw hfound
  obtain ⟨rfl, -⟩ := runs_visitAll_collect.1 hvisits
  refine ⟨roots, hruns, hsorted.imp place_ne_of_lt, ?_, ?_, ?_⟩
  · intro a ha b hb hne hab
    exact hne (((hroots b).1 hb).outermost a ((hroots a).1 ha).below hab
      ((hroots a).1 ha).isModuleRoot)
  · intro root hroot
    exact ⟨((hroots root).1 hroot).below, ((hroots root).1 hroot).isModuleRoot.package_or_file⟩
  · intro place hplace hfile
    obtain ⟨root, hroot, habove⟩ := exists_isRoot hplace hfile.isModuleRoot
    refine ⟨root, (hroots root).2 hroot, habove, fun other hother hother' => ?_⟩
    exact ((hroots other).1 hother).unique_above hroot hother' habove

/-! A package with a module in it, in a directory that is none. -/

def sampleRoots : Workspace where
  store :=
    ⟨.dir [("pkg", .dir [("__init__.py", .file .empty false), ("a.py", .file .empty false)])],
      []⟩
  scratch := .absolute ["tmp"]
  interpreter := ""

theorem moduleRoots_partition_on_sample :
    sampleRoots.store.root.Plain ∧ sampleRoots.store.at? [] ≠ none ∧
      IsModuleFile sampleRoots.store.root ["pkg", "a.py"] ∧
      ∃ roots : List (List String),
        Runs (moduleRoots (.absolute [])) sampleRoots (roots.map .absolute) sampleRoots ∧
        ∃ root ∈ roots, root <+: ["pkg", "a.py"] := by
  have hpackage :
    (Entry.dir [("__init__.py", .file .empty false), ("a.py", .file .empty false)]).Plain :=
    .dir (by decide) (by decide) (by simp [Entry.Plain.file])
  have hplain : sampleRoots.store.root.Plain :=
    .dir (by decide) (by decide) (by simpa using hpackage)
  have hfile : IsModuleFile sampleRoots.store.root ["pkg", "a.py"] :=
    ⟨⟨_, _, rfl⟩, .inl (by decide)⟩
  have htop : sampleRoots.store.at? [] ≠ none := Option.some_ne_none _
  obtain ⟨roots, hruns, -, -, -, hmodules⟩ := moduleRoots_partition hplain htop
  obtain ⟨root, hroot, habove, -⟩ := hmodules _ List.nil_prefix hfile
  exact ⟨hplain, htop, hfile, roots, hruns, root, hroot, habove⟩

end Files

end TypeStub
