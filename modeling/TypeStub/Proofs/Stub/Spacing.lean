import Mathlib.Data.List.Chain
import TypeStub.Proofs.Stub.Forest
import TypeStub.Proofs.Text.Lines
/-!
# Empty lines in a stub

Stubbing puts an empty line behind every class and every function, and rendering takes away those
that end a block. What is left is said here without them: `bare` is the tree as if no empty line had
been put anywhere, and `spaced` lays such a tree out with an empty line behind a class or a function
that something follows on its level, and nowhere else.

Every stub is laid out in this way (`output_spaced`). Documentation strings apart, no other line is
empty, and no line ends in white space; so empty lines stand alone, and never first or last in a
block.
-/

namespace TypeStub

open TypeStub.Syntax StubM

/-! ## Lines -/

/-- A line of a stub by where it comes from. -/
inductive StubLine
  | own (text : String)
  /-- A documentation string, as it stands in the source. -/
  | doc (text : String)
  /-- An empty line between two blocks. -/
  | gap
  deriving DecidableEq, Repr

namespace StubLine

def text : StubLine → String
  | .own text | .doc text => text
  | .gap => ""

/-- A line does not end in white space, and is empty only as a gap or in a documentation string. -/
structure Trim (l : StubLine) : Prop where
  stripped : ∀ c ∈ l.text.toList.getLast?, Text.isSpace c.toNat = false
  filled : ∀ text, l = .own text → text ≠ ""

/-- Lines are trimmed, do not start or end with a gap, and have no two gaps in a row. -/
structure Neat (lines : List StubLine) : Prop where
  trim : ∀ l ∈ lines, l.Trim
  first : lines.head? ≠ some .gap
  last : lines.getLast? ≠ some .gap
  apart : lines.IsChain fun l next => l ≠ .gap ∨ next ≠ .gap

theorem trim_gap : Trim .gap where
  stripped := by simp [text]
  filled := fun _ h => by cases h

namespace Neat

variable {ls ms : List StubLine}

theorem append (hls : Neat ls) (hms : Neat ms) : Neat (ls ++ ms) where
  trim := List.forall_mem_append.2 ⟨hls.trim, hms.trim⟩
  first := by
    cases ls with
    | nil => exact hms.first
    | cons l ls => exact hls.first
  last := by
    rw [List.getLast?_append]
    cases hlast : ms.getLast? with
    | none => exact hls.last
    | some l =>
      rw [Option.some_or, ← hlast]
      exact hms.last
  apart := List.isChain_append.2
    ⟨hls.apart, hms.apart, fun l hl _ _ => .inl fun hgap => hls.last (hgap ▸ hl)⟩

theorem append_gap (hls : Neat ls) (hms : Neat ms) (hl : ls ≠ []) (hm : ms ≠ []) :
    Neat (ls ++ [.gap] ++ ms) where
  trim := by
    simp only [List.forall_mem_append, List.forall_mem_singleton]
    exact ⟨⟨hls.trim, trim_gap⟩, hms.trim⟩
  first := by
    rw [List.append_assoc, List.head?_append_of_ne_nil _ hl]
    exact hls.first
  last := by
    rw [List.getLast?_append_of_ne_nil _ hm]
    exact hms.last
  apart := by
    refine List.isChain_append.2 ⟨List.isChain_append.2 ⟨hls.apart, .singleton _, ?_⟩,
      hms.apart, ?_⟩
    · exact fun l hl _ _ => .inl fun hgap => hls.last (hgap ▸ hl)
    · exact fun _ _ next hnext => .inr fun hgap => hms.first (hgap ▸ hnext)

theorem of_not_mem (htrim : ∀ l ∈ ls, l.Trim) (hgap : .gap ∉ ls) : Neat ls where
  trim := htrim
  first := fun h => hgap (List.mem_of_head? h)
  last := fun h => hgap (List.mem_of_getLast? h)
  apart := by
    refine List.Pairwise.isChain (List.pairwise_iff_forall_sublist.2 fun {l next} h => .inl ?_)
    rintro rfl
    exact hgap (h.subset List.mem_cons_self)

end Neat

end StubLine

open StubLine

namespace Node

/-! ## The layout of a tree without empty lines -/

/-- Whether a node is a class or a function. -/
def standsApart (n : Node) : Bool :=
  n.tags.contains .classDef || n.tags.contains .function

mutual

/-- A tree without its empty lines. -/
def bare : Node → Node
  | { tags, lines, children } => { tags, lines, children := bareAll children }

def bareAll : List Node → List Node
  | [] => []
  | n :: rest => if n.isSpacer then bareAll rest else n.bare :: bareAll rest

end

def ownLine (tags : List Tag) (depth : Nat) (line : String) : StubLine :=
  if tags.contains .docstring then .doc (indentedLine depth line)
  else .own (indentedLine depth line)

mutual

/-- The lines of a tree, with gaps between its blocks. -/
def spaced (depth : Nat) : Node → List StubLine
  | { tags, lines, children } =>
    lines.map (ownLine tags depth)
      ++ spacedAll (if tags.contains .module then depth else depth + 1) children

def spacedAll (depth : Nat) : List Node → List StubLine
  | [] => []
  | n :: rest =>
    n.spaced depth ++ (if n.standsApart && !rest.isEmpty then [.gap] else [])
      ++ spacedAll depth rest

end

/-- Trees side by side, as stubbing builds them: an empty line stands behind each class and each
function, and nowhere else. -/
inductive Paced : List Node → Prop
  | nil : Paced []
  | apart {n rest} : n.standsApart = true → n.Visible → Paced n.children → Paced rest →
      Paced (n :: spacer :: rest)
  | plain {n rest} : n.standsApart = false → n.Visible → Paced n.children → Paced rest →
      Paced (n :: rest)

variable {n : Node} {nodes more : List Node}

theorem Paced.eq_nil_or_cons (h : Paced nodes) :
    nodes = [] ∨ ∃ first rest, nodes = first :: rest ∧ first.Visible := by
  cases h with
  | nil => exact .inl rfl
  | apart _ hvisible | plain _ hvisible => exact .inr ⟨_, _, rfl, hvisible⟩

theorem Paced.of_mem_preorder (h : Paced nodes) (hn : n ∈ preorderAll nodes)
    (hspacer : n.isSpacer = false) : n.Visible ∧ Paced n.children := by
  have hempty : n ∉ preorderAll [spacer] := by
    rintro (_ | ⟨_, ⟨⟩⟩)
    cases hspacer
  induction h with
  | nil => cases hn
  | @apart m rest _ hvisible hchildren _ ihchildren ih =>
    rw [preorderAll, preorder_eq, ← List.singleton_append (l := rest), preorderAll_append,
      List.cons_append, List.mem_cons, List.mem_append, List.mem_append] at hn
    obtain rfl | hn | hn | hn := hn
    · exact ⟨hvisible, hchildren⟩
    · exact ihchildren hn
    · exact absurd hn hempty
    · exact ih hn
  | @plain m rest _ hvisible hchildren _ ihchildren ih =>
    rw [preorderAll, preorder_eq, List.cons_append, List.mem_cons, List.mem_append] at hn
    obtain rfl | hn | hn := hn
    · exact ⟨hvisible, hchildren⟩
    · exact ihchildren hn
    · exact ih hn

/-! ## Rendering -/

theorem bare_eq (n : Node) : n.bare = { n with children := bareAll n.children } := by
  cases n
  rw [bare]

theorem bareAll_cons (hspacer : n.isSpacer = false) (rest : List Node) :
    bareAll (n :: rest) = n.bare :: bareAll rest := by
  rw [bareAll, hspacer, if_neg Bool.false_ne_true]

theorem spaced_bare (depth : Nat) (n : Node) :
    n.bare.spaced depth = n.lines.map (ownLine n.tags depth)
      ++ spacedAll (if n.tags.contains .module then depth else depth + 1) (bareAll n.children) := by
  rw [bare_eq, spaced]

theorem text_ownLine (tags : List Tag) (depth : Nat) (line : String) :
    (ownLine tags depth line).text = indentedLine depth line := by
  unfold ownLine
  split <;> rfl

theorem render_bare (h : ∀ depth, renderAll depth n.children
      = (spacedAll depth (bareAll n.children)).map StubLine.text) (depth : Nat) :
    n.render depth = (n.bare.spaced depth).map StubLine.text := by
  rw [spaced_bare, List.map_append, ← h, List.map_map]
  cases n
  rw [render]
  congr 2
  exact funext fun line => (text_ownLine _ depth line).symm

theorem renderAll_cons (hspacer : n.isSpacer = false) (depth : Nat) (rest : List Node) :
    renderAll depth (n :: rest) = n.render depth ++ renderAll depth rest := by
  rw [renderAll, hspacer, Bool.false_and, if_neg Bool.false_ne_true]

theorem renderAll_spacer (hspacer : n.isSpacer = false) (depth : Nat) (rest : List Node) :
    renderAll depth (spacer :: n :: rest) = "" :: renderAll depth (n :: rest) := by
  have hempty : indentedLine depth "" = "" := by
    simp [indentedLine, Text.stripEnd, Text.dropTrailing, Text.isSpace]
  rw [renderAll, List.all_cons, hspacer, Bool.false_and, Bool.and_false, if_neg Bool.false_ne_true,
    spacer, leaf, render, List.map_singleton, hempty]
  rfl

theorem indentedLine_stripped (depth : Nat) (line : String) :
    ∀ c ∈ (indentedLine depth line).toList.getLast?, Text.isSpace c.toNat = false := by
  rw [indentedLine, String.toList_ofList]
  exact Text.dropTrailing_last

theorem indentedLine_ne_empty {depth : Nat} {line : String}
    (h : ∃ c ∈ line.toList, Text.isSpace c.toNat = false) : indentedLine depth line ≠ "" := by
  obtain ⟨c, hc, hspace⟩ := h
  intro hempty
  obtain ⟨trail, htext, htrail⟩ := Text.dropTrailing_split (fun c : Char =>
    Text.isSpace c.toNat)
    (List.replicate (4 * depth) ' ' ++ line.toList)
  have hnil : Text.stripEnd (List.replicate (4 * depth) ' ' ++ line.toList) = [] := by
    simpa [indentedLine] using hempty
  rw [show Text.dropTrailing _ _ = [] from hnil, List.nil_append] at htext
  have hmem : c ∈ trail := htext ▸ List.mem_append_right _ hc
  exact nomatch hspace.symm.trans (htrail c hmem)

theorem Visible.neat (h : n.Visible) (depth : Nat) : Neat (n.lines.map (ownLine n.tags depth)) := by
  refine .of_not_mem (List.forall_mem_map.2 fun line hline => ⟨?_, fun text htext => ?_⟩) ?_
  · rw [text_ownLine]
    exact indentedLine_stripped depth line
  · unfold ownLine at htext
    split at htext
    · cases htext
    · next hdoc =>
      cases htext
      exact indentedLine_ne_empty (h.shown (by simpa using hdoc) line hline)
  · rw [List.mem_map]
    rintro ⟨line, -, hgap⟩
    unfold ownLine at hgap
    split at hgap <;> cases hgap

theorem Visible.spaced_neat (h : n.Visible)
    (hchildren : ∀ depth, Neat (spacedAll depth (bareAll n.children))) (depth : Nat) :
    Neat (n.bare.spaced depth) := by
  rw [spaced_bare]
  exact (h.neat depth).append (hchildren _)

theorem Visible.spaced_ne_nil (h : n.Visible) (depth : Nat) : n.bare.spaced depth ≠ [] := by
  rw [spaced_bare]
  exact List.append_ne_nil_of_left_ne_nil (mt List.map_eq_nil_iff.1 h.lines) _

/-- What is rendered is the layout of the bare tree: an empty line is rendered exactly if something
follows it, and then the class or function in front of it has something behind it. -/
theorem Paced.laid (h : Paced nodes) (depth : Nat) :
    renderAll depth nodes = (spacedAll depth (bareAll nodes)).map StubLine.text ∧
      Neat (spacedAll depth (bareAll nodes)) := by
  induction h generalizing depth with
  | nil =>
    exact ⟨rfl, .of_not_mem (by simp [bareAll, spacedAll]) (by simp [bareAll, spacedAll])⟩
  | @plain n rest hplain hvisible _ _ ihchildren ih =>
    have hplain : n.bare.standsApart = false := by rwa [bare_eq]
    rw [renderAll_cons hvisible.spacer, bareAll_cons hvisible.spacer, spacedAll, hplain,
      Bool.false_and, if_neg Bool.false_ne_true, List.append_nil, List.map_append, (ih depth).1,
      render_bare fun d => (ihchildren d).1]
    exact ⟨rfl, (hvisible.spaced_neat (fun d => (ihchildren d).2) depth).append (ih depth).2⟩
  | @apart n rest hapart hvisible _ hrest ihchildren ih =>
    have hapart : n.bare.standsApart = true := by rwa [bare_eq]
    have hn := hvisible.spaced_neat (fun d => (ihchildren d).2) depth
    rw [renderAll_cons hvisible.spacer, bareAll_cons hvisible.spacer, bareAll, if_pos (by rfl),
      spacedAll, hapart, Bool.true_and, List.map_append, List.map_append, ← (ih depth).1,
      render_bare (fun d => (ihchildren d).1), List.append_assoc]
    obtain rfl | ⟨first, more, rfl, hfirst⟩ := hrest.eq_nil_or_cons
    · exact ⟨rfl, (hn.append (ih depth).2).append (ih depth).2⟩
    · have hmore : spacedAll depth (bareAll (first :: more)) ≠ [] := by
        rw [bareAll_cons hfirst.spacer, spacedAll, List.append_assoc]
        exact List.append_ne_nil_of_left_ne_nil (hfirst.spaced_ne_nil depth) _
      have hgap := hn.append_gap (ih depth).2 (hvisible.spaced_ne_nil depth) hmore
      rw [bareAll_cons hfirst.spacer] at hgap ⊢
      rw [renderAll_spacer hfirst.spacer, List.isEmpty_cons]
      exact ⟨rfl, hgap⟩

end Node

namespace Session

open Node

variable {s : Session} {parentTags : List Tag} {last : Option (List Tag)} {nodes : List Node}

/-! ## Stubbing -/

theorem Forest.paced {further} (h : s.Forest parentTags further nodes) : Paced nodes := by
  induction h with
  | nil => exact .nil
  | @leaf _ _ n _ hn hspacer hblock hchildren _ ih =>
    have hplain : n.standsApart = false := (Bool.or_eq_false_iff.1 hblock).1
    exact .plain hplain (hn.visible hspacer) (hchildren ▸ .nil) ih
  | definition hn htag _ _ _ ihchildren ih =>
    obtain rfl | rfl := htag <;> exact .apart rfl (hn.visible rfl) ihchildren ih
  | branch hline _ _ _ _ ihchildren ih =>
    exact .plain rfl (visible_single rfl rfl fun _ => shows_colon hline) ihchildren ih

theorem Grows.paced {part} (h : s.Grows part nodes) : Paced nodes :=
  h.forest.paced

/-- Every stub is its lines with a line feed behind each, and every node of its tree is laid out as
its bare tree: an empty line stands behind a class or a function that something follows on its
level, and nowhere else. -/
theorem output_spaced {m : Module} {text : String} (h : (s.output m).outcome = .ok text) :
    ∃ root, (s.stubModule m).outcome = .ok root ∧
      text = Text.join "\n" ((root.bare.spaced 0).map StubLine.text) ++ "\n" ∧
      Neat (root.bare.spaced 0) ∧
      ∀ n ∈ root.preorder, n.isSpacer = false → ∀ depth,
        n.render depth = (n.bare.spaced depth).map StubLine.text ∧
        Neat (n.bare.spaced depth) := by
  unfold output at h
  obtain ⟨root, hroot, h⟩ := outcome_bind_ok.1 h
  obtain ⟨children, hchildren, rfl⟩ := stubModule_grows hroot
  have hlaid := hchildren.paced.laid
  have hrender := render_bare (n := { tags := [.module], lines := [], children })
    fun d => (hlaid d).1
  have hneat :
      ∀ depth, Neat (spaced depth (bare { tags := [.module], lines := [], children })) := by
    intro depth
    rw [spaced_bare]
    exact (hlaid depth).2
  cases h
  refine ⟨_, hroot, by rw [Node.text, hrender], hneat 0, fun n hn hspacer depth => ?_⟩
  rw [preorder_eq, List.mem_cons] at hn
  obtain rfl | hn := hn
  · exact ⟨hrender depth, hneat depth⟩
  · obtain ⟨hvisible, hinner⟩ := hchildren.paced.of_mem_preorder hn hspacer
    exact ⟨render_bare (fun d => (hinner.laid d).1) depth,
      hvisible.spaced_neat (fun d => (hinner.laid d).2) depth⟩

theorem output_spaced_on_sample :
    ∃ config m text root, keepDefinitionsConfig.validate = .ok config ∧
      (Stub.sampleSource nestedSample).readModule = .ok m ∧
      (output ⟨Stub.sampleSource nestedSample, config, false, none⟩ m).outcome = .ok text ∧
      (stubModule ⟨Stub.sampleSource nestedSample, config, false, none⟩ m).outcome
      = .ok root ∧ (root.bare.spaced 0).count .gap = 1 ∧ Neat (root.bare.spaced 0) ∧
      text = Text.join "\n" ((root.bare.spaced 0).map StubLine.text) ++ "\n" := by
  have hsample : (sampleStub? nestedSample).any
      (fun x => (x.2.2.bare.spaced 0).count .gap == 1) = true := by
    decide +kernel
  obtain ⟨⟨config, m, root⟩, hstub, hgaps⟩ := (Option.any_eq_true _ _).1 hsample
  obtain ⟨hconfig, _, _, hm, hroot⟩ := sampleStub?_eq_some hstub
  have hout : (output ⟨Stub.sampleSource nestedSample, config, false, none⟩ m).outcome
      = .ok root.text := outcome_bind_ok.2 ⟨root, hroot, rfl⟩
  obtain ⟨root', hroot', htext, hneat, -⟩ := output_spaced hout
  cases hroot.symm.trans hroot'
  exact ⟨config, m, _, root, hconfig, hm, hout, hroot, eq_of_beq hgaps, hneat, htext⟩

end Session

end TypeStub
