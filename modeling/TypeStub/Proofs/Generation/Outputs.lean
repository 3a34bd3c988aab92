import TypeStub.Generation
import TypeStub.Proofs.Files.Walks
import TypeStub.Proofs.Text.Lines
/-!
# Where outputs go

A place below the input has a place below the output, at which the stub of a module takes another
suffix (`outBelow`). Different modules could want the same place, and the output of one could lie
below that of another. For the files that a run takes up (`IsSource`) this does not happen
(`IsSource.out_not_above`), and an output lies below that of no later root
(`IsSource.not_below_root`).
-/

namespace TypeStub

/-! ## Suffixes -/

namespace Path

theorem splitName_cases (name : String) : splitName name = (name, "") ∨ ∃ front back,
      front ≠ [] ∧ splitName name = (String.ofList front, String.ofList ('.' :: back)) ∧
      name.toList = front ++ '.' :: back := by
  simp only [splitName]
  generalize hback : name.toList.reverse.takeWhile (· != '.') = back
  split
  · exact .inl rfl
  next hcond =>
  simp only [Bool.or_eq_true, List.isEmpty_iff, not_or] at hcond
  have hsplit : back ++ name.toList.reverse.dropWhile (· != '.') = name.toList.reverse := by
    rw [← hback, List.takeWhile_append_dropWhile]
  cases hrest : name.toList.reverse.dropWhile (· != '.') with
  | nil =>
    rw [hrest, List.append_nil] at hsplit
    simp only [← hsplit, List.reverse_eq_nil_iff, List.drop_eq_nil_iff] at hcond
    omega
  | cons c rest =>
    have hdot : c = '.' := by
      have := List.head_dropWhile_not (· != '.') (l := name.toList.reverse) (by simp [hrest])
      simpa [hrest] using this
    subst hdot
    rw [hrest] at hsplit
    have hdrop : name.toList.reverse.drop (back.length + 1) = rest := by
      rw [← hsplit, List.drop_append]
      simp
    rw [hdrop] at hcond
    refine .inr ⟨rest.reverse, back.reverse, hcond.2, by rw [hdrop], ?_⟩
    rw [← List.reverse_reverse name.toList, ← hsplit]
    simp

theorem splitName_eq (name : String) : (splitName name).1 ++ (splitName name).2 = name := by
  obtain h | ⟨front, back, _, h, hname⟩ := splitName_cases name
  · rw [h, String.append_empty]
  · rw [h, ← String.toList_inj]
    simp [hname]

theorem stem_ne_empty {name} (h : (splitName name).2 ≠ "") : (splitName name).1 ≠ "" := by
  obtain hsplit | ⟨front, back, hfront, hsplit, _⟩ := splitName_cases name
  · simp [hsplit] at h
  · rw [hsplit]
    intro hempty
    have := congrArg String.toList hempty
    simp [hfront] at this

theorem splitName_pyi {stem} (h : stem ≠ "") : splitName (stem ++ ".pyi") = (stem, ".pyi") := by
  have hstem : stem.toList ≠ [] := by simpa using h
  have hdot : ".pyi".toList.reverse = ['i', 'y', 'p', '.'] := by decide
  unfold splitName
  simp only [String.toList_append, List.reverse_append, hdot]
  simp [hstem]

theorem name_absolute (front : List String) (name : String) :
    (absolute (front ++ [name])).name = name := by
  simp [Path.name, absolute]

theorem suffix_absolute (front : List String) (name : String) :
    (absolute (front ++ [name])).suffix = (splitName name).2 := by
  rw [suffix, name_absolute]

end Path

namespace Generation

open TypeStub.Files TypeStub.WorkM Store

/-! ## Names and places of outputs -/

def outName (name : String) : String :=
  if (Path.splitName name).2 = ".py" then (Path.splitName name).1 ++ ".pyi" else name

theorem outName_of_py {name} (h : (Path.splitName name).2 = ".py") :
    outName name = (Path.splitName name).1 ++ ".pyi" :=
  if_pos h

theorem outName_of_ne {name} (h : (Path.splitName name).2 ≠ ".py") : outName name = name :=
  if_neg h

theorem suffix_outName {name} (h : (Path.splitName name).2 = ".py") :
    (Path.splitName (outName name)).2 = ".pyi" := by
  rw [outName_of_py h, Path.splitName_pyi (Path.stem_ne_empty (by simp [h]))]

theorem outName_ne_back {name} (h : name ≠ "..") : outName name ≠ ".." := by
  intro hback
  by_cases hpy : (Path.splitName name).2 = ".py"
  · have := suffix_outName hpy
    rw [hback] at this
    exact absurd this (by decide)
  · exact h ((outName_of_ne hpy).symm.trans hback)

theorem eq_of_outName_eq {n m} (h : outName n = outName m) :
    n = m ∨ ((Path.splitName n).2 = ".py" ∧ m = outName n) ∨
      ((Path.splitName m).2 = ".py" ∧ n = outName m) := by
  by_cases hn : (Path.splitName n).2 = ".py"
  · by_cases hm : (Path.splitName m).2 = ".py"
    · rw [outName_of_py hn, outName_of_py hm, String.append_left_inj] at h
      refine .inl ?_
      rw [← Path.splitName_eq n, ← Path.splitName_eq m, h, hn, hm]
    · exact .inr (.inl ⟨hn, by rw [h, outName_of_ne hm]⟩)
  · by_cases hm : (Path.splitName m).2 = ".py"
    · exact .inr (.inr ⟨hm, by rw [← h, outName_of_ne hn]⟩)
    · exact .inl (by rwa [outName_of_ne hn, outName_of_ne hm] at h)

theorem lt_outName {name} (h : (Path.splitName name).2 = ".py") : name < outName name := by
  have hname : (Path.splitName name).1 ++ ".py" = name := by
    rw [← h, Path.splitName_eq]
  calc name = (Path.splitName name).1 ++ ".py" := hname.symm
    _ < (Path.splitName name).1 ++ ".pyi" := by
      rw [String.lt_iff, String.toList_append, String.toList_append]
      exact List.append_left_lt (by decide)
    _ = outName name := (outName_of_py h).symm

def outBelow : List String → List String
  | [] => []
  | [name] => [outName name]
  | name :: next :: rest => name :: outBelow (next :: rest)

theorem outBelow_append (front : List String) {rest} (h : rest ≠ []) :
    outBelow (front ++ rest) = front ++ outBelow rest := by
  induction front with
  | nil => rfl
  | cons name more ih =>
    obtain ⟨next, others, heq⟩ : ∃ next others, more ++ rest = next :: others :=
      List.exists_cons_of_ne_nil (by simp [h])
    rw [List.cons_append, List.cons_append, ← ih, heq, outBelow]

theorem outBelow_concat (front : List String) (name : String) :
    outBelow (front ++ [name]) = front ++ [outName name] :=
  outBelow_append front (List.cons_ne_nil _ _)

theorem forward_outBelow {below} (h : Forward below) : Forward (outBelow below) := by
  obtain rfl | ⟨front, name, rfl⟩ := List.eq_nil_or_concat' below
  · exact h
  · obtain ⟨hfront, hname⟩ := forward_append.1 h
    rw [outBelow_concat]
    exact forward_append.2 ⟨hfront, forward_single.2 (outName_ne_back (forward_single.1 hname))⟩

/-! ## What a run takes up -/

/-- A module that has no stub beside it. -/
def IsStubbed (tree : Entry) (place : List String) : Prop :=
  (Path.absolute place).suffix = ".py" ∧ tree.at? (outBelow place) = none

/-- A stub, or the marker of a typed package. -/
def IsCopied (place : List String) : Prop :=
  (Path.absolute place).suffix = ".pyi" ∨ (Path.absolute place).name = "py.typed"

/-- What is done with a place that is taken up. -/
inductive Takes (tree : Entry) (place : List String) : Action → Prop
  | stub : IsStubbed tree place → Takes tree place .stub
  | copy : IsCopied place → Takes tree place .copy

/-- A file below the input that has an output. -/
structure IsSource (tree : Entry) (input below : List String) : Prop where
  isFile : ∃ content executable, tree.at? (input ++ below) = some (.file content executable)
  taken : ∃ action, Takes tree (input ++ below) action

/-- What a run makes of a file below the input. -/
inductive Product (config : ValidConfig) (tree : Entry) (input below : List String) : Item → Prop
  | stub {content executable text stub} :
    tree.at? (input ++ below) = some (.file content executable) →
    IsStubbed tree (input ++ below) → textOf? content = some text →
    (Stub.generate config false (.read (Path.mk "" below).text) text).outcome = .ok stub →
    Product config tree input below (.file stub.toUTF8 false)
  | copy {content executable} :
    tree.at? (input ++ below) = some (.file content executable) → IsCopied (input ++ below) →
    Product config tree input below (.file content executable)

/-- No directory at or below a place has the name of a module. -/
def NoModuleDir (tree : Entry) (place : List String) : Prop :=
  ∀ q, place <+: q → tree.at? q = some .dir →
    (Path.absolute q).suffix ≠ ".py" ∧ (Path.absolute q).suffix ≠ ".pyi"

/-- A plain tree with an input directory, where only files are called like modules. -/
structure Orderly (tree : Entry) (input : List String) : Prop where
  plain : tree.Plain
  isDir : tree.at? input = some .dir
  named : NoModuleDir tree input

/-- A tree with an input directory and an output apart from it. -/
structure Beside (tree : Entry) (input output : List String) : Prop extends Orderly tree input where
  notAbove : ¬ output <+: input
  notBelow : ¬ input <+: output

/-- The same where the path of the output never goes up. -/
structure Apart (tree : Entry) (input output : List String) : Prop extends
    Beside tree input output where
  forward : Forward output

variable {tree : Entry} {input output x y front : List String} {name : String} {action : Action}

theorem Apart.out_concat (hs : Apart tree input output) (below : List String) :
    ∃ front name, output ++ outBelow below = front ++ [name] := by
  obtain h | h := List.eq_nil_or_concat' (output ++ outBelow below)
  · rw [List.append_eq_nil_iff] at h
    exact absurd (h.1 ▸ List.nil_prefix) hs.notAbove
  · exact h

/-- An output is neither above nor below a place of the input. -/
theorem Apart.out_apart (hs : Apart tree input output) {q} (hq : input <+: q)
    (below : List String) : ¬ output ++ below <+: q ∧ ¬ q <+: output ++ below := by
  have hapart : ∀ {p}, output <+: p → input <+: p → False := fun hout hin =>
    (List.prefix_or_prefix_of_prefix hout hin).elim hs.notAbove hs.notBelow
  constructor
  · intro h
    exact hapart ((List.prefix_append _ _).trans h) hq
  · intro h
    exact hapart (List.prefix_append _ _) (hq.trans h)

theorem Orderly.outName_eq_of_dir (hs : Orderly tree input)
    (h : tree.at? (input ++ (front ++ [name])) = some .dir) : outName name = name := by
  refine outName_of_ne fun hpy => ?_
  have := (hs.named _ (List.prefix_append _ _) h).1
  rw [← List.append_assoc, Path.suffix_absolute] at this
  exact this hpy

/-- No directory is where the stub of a module would be. -/
theorem Orderly.outName_eq_of_out_dir (hs : Orderly tree input)
    (h : tree.at? (input ++ (front ++ [outName name])) = some .dir) : outName name = name := by
  refine outName_of_ne fun hpy => ?_
  have := (hs.named _ (List.prefix_append _ _) h).2
  rw [← List.append_assoc, Path.suffix_absolute, suffix_outName hpy] at this
  exact this rfl

theorem IsSource.exists_root (hx : IsSource tree input x) :
    ∃ root, IsRoot tree input root ∧ root <+: input ++ x := by
  refine exists_isRoot (List.prefix_append _ _) (.inr ⟨hx.isFile, ?_⟩)
  obtain ⟨_, ⟨hpy, _⟩ | hpyi | hname⟩ := hx.taken
  · simp [isModulePath, hpy]
  · simp [isModulePath, hpyi]
  · simp [isModulePath, hname]

theorem IsSource.concat (hs : Orderly tree input) (hx : IsSource tree input x) :
    ∃ front name, x = front ++ [name] ∧ tree.at? (input ++ front) = some .dir := by
  obtain ⟨content, executable, hfile⟩ := hx.isFile
  obtain rfl | ⟨front, name, rfl⟩ := List.eq_nil_or_concat' x
  · rw [List.append_nil, hs.isDir] at hfile
    cases hfile
  · rw [← List.append_assoc] at hfile
    exact ⟨front, name, rfl,
      Entry.at?_dir_of_below (by rw [hfile]; simp) (List.cons_ne_nil _ _)⟩

theorem not_isCopied {place} (hpy : (Path.absolute place).suffix = ".py") : ¬ IsCopied place := by
  rintro (hsuffix | hname)
  · rw [hpy] at hsuffix
    exact absurd hsuffix (by decide)
  · rw [Path.suffix, hname] at hpy
    exact absurd hpy (by decide)

theorem Product.unique {config item item'} (h : Product config tree input x item)
    (h' : Product config tree input x item') : item = item' := by
  cases h with
  | stub hfile hstubbed htext hstub =>
    cases h' with
    | stub hfile' _ htext' hstub' =>
      cases hfile.symm.trans hfile'
      cases htext.symm.trans htext'
      cases hstub.symm.trans hstub'
      rfl
    | copy _ hcopied => exact absurd hcopied (not_isCopied hstubbed.1)
  | copy hfile hcopied =>
    cases h' with
    | stub _ hstubbed _ _ => exact absurd hcopied (not_isCopied hstubbed.1)
    | copy hfile' _ =>
      cases hfile.symm.trans hfile'
      rfl

/-- Nothing is where the stub of a module goes that is taken up. -/
theorem Takes.no_stub {front name} (h : Takes tree (front ++ [name]) action)
    (hpy : (Path.splitName name).2 = ".py") : tree.at? (front ++ [outName name]) = none := by
  cases h with
  | stub hstub => rw [← outBelow_concat]; exact hstub.2
  | copy hcopy => exact absurd hcopy (not_isCopied ((Path.suffix_absolute _ _).trans hpy))

/-- Different places that are taken up have different outputs. -/
theorem Takes.eq_of_outBelow_eq {action'} (hx : Takes tree (input ++ x) action)
    (hy : Takes tree (input ++ y) action') (hxthere : tree.at? (input ++ x) ≠ none)
    (hythere : tree.at? (input ++ y) ≠ none) (h : outBelow x = outBelow y) : x = y := by
  obtain rfl | ⟨a, n, rfl⟩ := List.eq_nil_or_concat' x
  · obtain rfl | ⟨b, m, rfl⟩ := List.eq_nil_or_concat' y
    · rfl
    · simp [outBelow_concat, outBelow] at h
  · obtain rfl | ⟨b, m, rfl⟩ := List.eq_nil_or_concat' y
    · simp [outBelow_concat, outBelow] at h
    · rw [outBelow_concat, outBelow_concat] at h
      obtain ⟨rfl, hnames⟩ := List.append_inj' h rfl
      rw [← List.append_assoc] at hx hy hxthere hythere
      obtain rfl | ⟨hpy, rfl⟩ | ⟨hpy, rfl⟩ := eq_of_outName_eq (List.singleton_inj.1 hnames)
      · rfl
      · exact absurd (hx.no_stub hpy) hythere
      · exact absurd (hy.no_stub hpy) hxthere

theorem IsSource.no_stub (hx : IsSource tree input (front ++ [name]))
    (hpy : (Path.splitName name).2 = ".py") :
    tree.at? (input ++ (front ++ [outName name])) = none := by
  obtain ⟨_, htakes⟩ := hx.taken
  rw [← List.append_assoc] at htakes ⊢
  exact htakes.no_stub hpy

/-- **Outputs do not get in each other's way**: they differ, and none lies below another. -/
theorem IsSource.out_not_above (hs : Orderly tree input) (hx : IsSource tree input x)
    (hy : IsSource tree input y) (hne : x ≠ y) : ¬ outBelow x <+: outBelow y := by
  intro hprefix
  obtain ⟨⟨_, _, hxfile⟩, _, hxtakes⟩ := id hx
  obtain ⟨⟨_, _, hyfile⟩, _, hytakes⟩ := id hy
  have hsame := hxtakes.eq_of_outBelow_eq hytakes (by simp [hxfile]) (by simp [hyfile])
  obtain ⟨a, n, rfl, _⟩ := hx.concat hs
  obtain ⟨b, m, rfl, hb⟩ := hy.concat hs
  rw [outBelow_concat, outBelow_concat] at hprefix hsame
  obtain heq | ⟨rest, rfl⟩ := List.prefix_concat_iff.1 hprefix
  · exact hne (hsame heq)
  · -- one below the other: there would be a directory in place of a file
    have hdir : tree.at? (input ++ (a ++ [outName n])) = some .dir :=
      Entry.at?_dir_above hb (by simp)
    have hname := hs.outName_eq_of_out_dir hdir
    rw [hname, hxfile] at hdir
    cases hdir

theorem IsSource.not_below_root (hs : Apart tree input output) (hx : IsSource tree input x)
    {root later} (hroot : IsRoot tree input root) (hbelow : root <+: input ++ x)
    (hlater : IsRoot tree input (input ++ later)) (hlt : root < input ++ later) :
    ¬ outBelow later <+: outBelow x := by
  intro hprefix
  have hne : root ≠ input ++ later := place_ne_of_lt hlt
  obtain ⟨a, n, rfl, ha⟩ := hx.concat hs.toOrderly
  obtain rfl | ⟨b, m, rfl⟩ := List.eq_nil_or_concat' later
  · -- the input is a root, so there is no other one
    rw [List.append_nil] at hlater hne
    exact hne ((isRoot_of_isModuleRoot hlater.isModuleRoot).1 hroot)
  rw [outBelow_concat, outBelow_concat, List.prefix_concat_iff] at hprefix
  obtain heq | hprefix := hprefix
  · -- both are in the same directory
    obtain ⟨rfl, hnames⟩ := List.append_inj' heq rfl
    rw [← List.append_assoc, List.prefix_concat_iff] at hbelow
    obtain rfl | hbelow := hbelow
    · obtain rfl | ⟨hpy, rfl⟩ | ⟨hpy, rfl⟩ :=
        eq_of_outName_eq (List.singleton_inj.1 hnames)
      · exact hne (List.append_assoc _ _ _)
      · -- the later root would be a module and the earlier one its stub
        have hbefore : input ++ (b ++ [m]) < input ++ b ++ [outName m] :=
          lt_of_name_lt (lt_outName hpy) (by simp) (List.prefix_refl _)
        exact List.lt_asymm hlt hbefore
      · exact hlater.isModuleRoot.exists (hx.no_stub hpy)
    · exact hne (hroot.unique_above hlater (hbelow.trans (by simp)) (List.prefix_refl _))
  · -- the later root is a directory that the source lies in
    have hdir : tree.at? (input ++ (b ++ [outName m])) = some .dir :=
      Entry.at?_dir_above ha (by simpa using hprefix)
    rw [hs.toOrderly.outName_eq_of_out_dir hdir] at hprefix
    refine hne (hroot.unique_above hlater hbelow ?_)
    rw [List.prefix_append_right_inj]
    exact hprefix.trans (List.prefix_append _ _)

theorem Orderly.out_below_root (hs : Orderly tree input) (hx : tree.at? (input ++ x) ≠ none)
    {root} (hroot : input ++ root <+: input ++ x) : outBelow root <+: outBelow x := by
  rw [List.prefix_append_right_inj] at hroot
  obtain ⟨rest, rfl⟩ := hroot
  by_cases hrest : rest = []
  · rw [hrest, List.append_nil]
  rw [outBelow_append root hrest]
  refine List.IsPrefix.trans ?_ (List.prefix_append _ _)
  obtain rfl | ⟨front, name, rfl⟩ := List.eq_nil_or_concat' root
  · exact List.nil_prefix
  · -- the root is a directory
    rw [← List.append_assoc] at hx
    rw [outBelow_concat, hs.outName_eq_of_dir (Entry.at?_dir_of_below hx hrest)]

/-! ## Events -/

def directories (input output : List String) : Mapping where
  input := .absolute input
  output := .absolute output
  single := false

theorem relativeTo?_absolute (base below : List String) :
    (Path.absolute (base ++ below)).relativeTo? (.absolute base) = some (.mk "" below) := by
  simp [Path.relativeTo?, Path.absolute, Text.dropPrefix?_self]

theorem withSuffix?_absolute (front : List String) {name} (h : (Path.splitName name).2 = ".py") :
    (Path.absolute (front ++ [name])).withSuffix? ".pyi"
    = some (.absolute (front ++ [outName name])) := by
  have hname : name ≠ "" := by
    rintro rfl
    exact absurd h (by decide)
  rw [Path.withSuffix?, Path.name_absolute, Path.stem, Path.name_absolute, outName_of_py h]
  simp [Path.absolute, hname]

theorem renamed_eq (hs : Orderly tree input) (output below : List String) :
    (if ((Path.absolute (input ++ below)).suffix == ".py") = true then
      (Path.absolute (output ++ below)).withSuffix? ".pyi" else some (.absolute (output ++ below)))
      = some (.absolute (output ++ outBelow below)) := by
  obtain rfl | ⟨front, name, rfl⟩ := List.eq_nil_or_concat' below
  · have hnot : ¬ ((Path.absolute (input ++ [])).suffix == ".py") = true := by
      rw [List.append_nil, beq_iff_eq]
      exact (hs.named input (List.prefix_refl _) hs.isDir).1
    rw [if_neg hnot, outBelow]
  · rw [← List.append_assoc, ← List.append_assoc, Path.suffix_absolute, outBelow_concat,
      ← List.append_assoc]
    split
    · next hpy => exact withSuffix?_absolute _ (beq_iff_eq.1 hpy)
    · next hpy => rw [outName_of_ne fun h => hpy (beq_iff_eq.2 h)]

def eventOf (input output : List String) (action : Action) (below : List String) : Event where
  action
  input := .absolute (input ++ below)
  inputText := (Path.mk "" below).text
  output := .absolute (output ++ outBelow below)
  outputText := (Path.mk "" (outBelow below)).text

theorem event?_eq (hs : Orderly tree input) (action : Action) (output below : List String) :
    (directories input output).event? action (.absolute (input ++ below))
      = some (eventOf input output action below) := by
  have hjoin : (Path.absolute output).join (.mk "" below) = .absolute (output ++ below) := rfl
  have hrenamed := renamed_eq hs output below
  have hbelow := relativeTo?_absolute input below
  have hshown := relativeTo?_absolute output (outBelow below)
  unfold Mapping.event? eventOf
  split at hrenamed
  · next hpy => simp [directories, hbelow, hpy, hjoin, hrenamed, hshown]
  · next hpy =>
    rw [← Option.some.inj hrenamed] at hshown ⊢
    simp [directories, hbelow, hpy, hjoin, hshown]

theorem runs_event (hs : Orderly tree input) {action below e w w'} :
    Runs ((directories input output).event action (.absolute (input ++ below))) w e w' ↔
      e = eventOf input output action below ∧ w' = w := by
  rw [Mapping.event, event?_eq hs]
  exact runs_pure

/-- A module is stubbed unless there is a stub beside it. Stubs and markers are copied. -/
theorem fileAction?_cases {s} (hw : Keeps tree input s) (hs : Orderly tree input) {below}
    (hexists : tree.at? (input ++ below) ≠ none) :
    (∃ action, fileAction? s (.absolute (input ++ below)) = some action ∧
        Takes tree (input ++ below) action) ∨
      fileAction? s (.absolute (input ++ below)) = none ∧
        ¬ ∃ action, Takes tree (input ++ below) action := by
  have hstub : ((Path.absolute (input ++ below)).suffix == ".py" &&
      !(((Path.absolute (input ++ below)).withSuffix? ".pyi").any s.pathExists)) = true ↔
        IsStubbed tree (input ++ below) := by
    rw [Bool.and_eq_true, beq_iff_eq, IsStubbed]
    refine and_congr_right fun hpy => ?_
    obtain rfl | ⟨front, name, rfl⟩ := List.eq_nil_or_concat' below
    · rw [List.append_nil] at hpy
      exact absurd hpy (hs.named input (List.prefix_refl _) hs.isDir).1
    rw [← List.append_assoc] at hpy hexists ⊢
    have hbeside : Forward (outBelow (input ++ front ++ [name])) :=
      forward_outBelow (hw.forward (by simp) hexists)
    rw [outBelow_concat] at hbeside
    rw [Path.suffix_absolute] at hpy
    rw [withSuffix?_absolute _ hpy, outBelow_concat, Option.any_some, Bool.not_eq_true',
      ← Bool.not_eq_true, hw.pathExists (by simp) hbeside, not_not]
  have hcopy : ((Path.absolute (input ++ below)).suffix == ".pyi" ||
      (Path.absolute (input ++ below)).name == "py.typed") = true ↔
      IsCopied (input ++ below) := by
    rw [Bool.or_eq_true, beq_iff_eq, beq_iff_eq, IsCopied]
  unfold fileAction?
  split
  · next hstubbed => exact .inl ⟨_, rfl, .stub (hstub.1 hstubbed)⟩
  · next hstubbed =>
    split
    · next hcopied => exact .inl ⟨_, rfl, .copy (hcopy.1 hcopied)⟩
    · next hcopied =>
      refine .inr ⟨rfl, ?_⟩
      rintro ⟨_, h | h⟩
      · exact hstubbed (hstub.2 h)
      · exact hcopied (hcopy.2 h)

end Generation

end TypeStub
