import Mathlib.Data.List.DropRight
import TypeStub.Proofs.Stub.Forest
/-!
# Blocks in a stub

The shape of the trees that stubbing builds, whatever the configuration:

* a class, a function and a branch of an `if` statement have something inside, which does not start
  with an empty line; imports, variables, strings, marks and empty lines have nothing inside;
* an empty line stands directly behind a class or a function;
* an `if` statement that is kept becomes one branch for `if`, one for each `elif`, and one for
  `else` if there is such a part, without anything between them.

In the lines of the stub this means that every header is followed by a line one level deeper, and
that `elif` and `else` continue an `if` of their own level (`stubModule_blocks`).
-/

namespace TypeStub

open TypeStub.Syntax StubM

/-! ## Lines with their level and their part in a block -/

/-- A line of a stub before it is indented. -/
structure LaidLine where
  depth : Nat
  role : LineRole
  text : String
  deriving DecidableEq, Repr

namespace Node

def role (n : Node) : LineRole :=
  if n.tags.contains .if then branchRole (n.lines.getLastD "")
  else if n.tags.contains .classDef || n.tags.contains .function then .definition
  else if n.isSpacer then .gap
  else .plain

def markLast (depth : Nat) (role : LineRole) : List String → List LaidLine
  | [] => []
  | [line] => [{ depth, role, text := line }]
  | line :: rest => { depth, role := .plain, text := line } :: markLast depth role rest

mutual

def layout (depth : Nat) : Node → List LaidLine
  | { tags, lines, children } =>
    markLast depth (role { tags, lines, children }) lines
      ++ layoutAll (if tags.contains .module then depth else depth + 1) children

def layoutAll (depth : Nat) : List Node → List LaidLine
  | [] => []
  | n :: rest =>
    if n.isSpacer && rest.all isSpacer then [] else n.layout depth ++ layoutAll depth rest

end

theorem map_text_markLast (depth : Nat) (role : LineRole) (lines : List String) :
    (markLast depth role lines).map (fun l => indentedLine l.depth l.text)
      = lines.map (indentedLine depth) := by
  fun_induction markLast depth role lines with
  | case1 => rfl
  | case2 => rfl
  | case3 line rest _ ih => rw [List.map_cons, List.map_cons, ih]

mutual

theorem render_eq_layout (depth : Nat) :
    (n : Node) → n.render depth = (n.layout depth).map fun l => indentedLine l.depth l.text
  | { tags, lines, children } => by
    rw [render, layout, List.map_append, map_text_markLast, renderAll_eq_layout]

theorem renderAll_eq_layout (depth : Nat) : (nodes : List Node) →
    renderAll depth nodes = (layoutAll depth nodes).map fun l => indentedLine l.depth l.text
  | [] => rfl
  | n :: rest => by
    rw [renderAll, layoutAll]
    split
    · rfl
    · rw [List.map_append, render_eq_layout depth n, renderAll_eq_layout depth rest]

end

theorem layout_eq (depth : Nat) (n : Node) : n.layout depth = markLast depth n.role n.lines
      ++ layoutAll (if n.tags.contains .module then depth else depth + 1) n.children := by
  cases n
  rw [layout]

/-! ## The shape of a node -/

def isSingle (n : Node) : Bool :=
  n.tags.contains .imports || n.tags.contains .variable || n.tags.contains .docstring
    || n.tags.contains .ellipsis || n.tags.contains .spacer

/-- A node may stand directly behind another one, or at the start of a block: an empty line only
behind a class or a function, and `elif` and `else` only behind `if` or `elif`. -/
structure MayFollow (prev : Option Node) (n : Node) : Prop where
  spacer : n.isSpacer = true →
    ∃ p, prev = some p ∧ (p.tags.contains .classDef || p.tags.contains .function) = true
  branch : n.role.isFurther = true → ∃ p, prev = some p ∧ p.role.isOpen = true

/-- Each of several nodes may stand behind the one before it. -/
def Follow : (prev : Option Node) → List Node → Prop
  | _, [] => True
  | prev, n :: rest => MayFollow prev n ∧ Follow (some n) rest

/-- A node has what its tags ask for. -/
structure Shaped (n : Node) : Prop where
  block : n.isBlock = true → n.tags.contains .module = false ∧ n.lines ≠ [] ∧
    ∃ first rest, n.children = first :: rest ∧ first.isSpacer = false ∧ first.lines ≠ []
  branch : n.tags.contains .if = true → ∃ line, n.lines = [line]
  single : n.isSingle = true → n.children = []
  follow : Follow none n.children

/-- Several nodes are shaped inside and out, may stand behind any node that is admitted, and do not
start with an empty line. -/
structure Tidy (admits : Option Node → Prop) (nodes : List Node) : Prop where
  shaped : ∀ n ∈ preorderAll nodes, n.Shaped
  follow : ∀ prev, admits prev → Follow prev nodes
  first : ∀ n ∈ nodes.head?, n.isSpacer = false ∧ n.lines ≠ []

def anywhere : Option Node → Prop := fun _ => True

/-- Further branches stand behind a branch that can be continued. -/
def behindBranch : Option Node → Prop := fun prev => ∃ p, prev = some p ∧ p.role.isOpen = true

namespace Tidy

variable {admits : Option Node → Prop} {n : Node} {more : List Node}

theorem nil : Tidy admits [] where
  shaped := by simp [preorderAll]
  follow := fun _ _ => trivial
  first := by simp

theorem cons (hshaped : n.Shaped) (hinner : ∀ m ∈ preorderAll n.children, m.Shaped)
    (hspacer : n.isSpacer = false) (hlines : n.lines ≠ [])
    (hbranch : ∀ prev, admits prev → MayFollow prev n)
    (hmore : ∀ m ∈ preorderAll more, m.Shaped) (hfollow : Follow (some n) more) :
    Tidy admits (n :: more) where
  shaped := by
    rw [preorderAll, preorder_eq, List.forall_mem_append, List.forall_mem_cons]
    exact ⟨⟨hshaped, hinner⟩, hmore⟩
  follow := fun prev hprev => ⟨hbranch prev hprev, hfollow⟩
  first := by simpa using ⟨hspacer, hlines⟩

end Tidy

variable {n : Node} {children : List Node} {before : List LaidLine}

theorem shaped_of_childless (hchildren : n.children = []) (hblock : n.isBlock = false) :
    n.Shaped where
  block := fun h => nomatch hblock.symm.trans h
  branch := fun h => by
    rw [isBlock, h, Bool.or_true] at hblock
    cases hblock
  single := fun _ => hchildren
  follow := by rw [hchildren]; exact trivial

theorem shaped_of_children (hmodule : n.tags.contains .module = false)
    (hsingle : n.isSingle = false) (hlines : n.lines ≠ [])
    (hbranch : n.tags.contains .if = true → ∃ line, n.lines = [line]) (hne : n.children ≠ [])
    (h : Tidy anywhere n.children) : n.Shaped where
  block := fun _ => by
    obtain ⟨first, rest, hcons⟩ := List.exists_cons_of_ne_nil hne
    have hfirst := h.first first (by rw [hcons]; rfl)
    exact ⟨hmodule, hlines, first, rest, hcons, hfirst.1, hfirst.2⟩
  branch := hbranch
  single := fun h => nomatch hsingle.symm.trans h
  follow := h.follow none trivial

/-! ## The layout of shaped trees -/

/-- Every header is directly followed by a line one level deeper, which is not empty. -/
def HeadersFilled (lines : List LaidLine) : Prop :=
  ∀ front l back, lines = front ++ l :: back → l.role.isHeader = true →
    ∃ next rest, back = next :: rest ∧ next.depth = l.depth + 1 ∧ next.role ≠ .gap

/-- Lines end with an `if` or `elif` at a level and with what is inside of it. -/
def OpenAt (depth : Nat) (lines : List LaidLine) : Prop :=
  ∃ front l inner, lines = front ++ l :: inner ∧ l.depth = depth ∧ l.role.isOpen = true ∧
    ∀ i ∈ inner, depth < i.depth

/-- Behind the lines `before`, every `elif` and `else` continues an `if` or `elif` of its level. -/
def BranchesContinue (before lines : List LaidLine) : Prop :=
  ∀ front l back, lines = front ++ l :: back → l.role.isFurther = true →
    OpenAt l.depth (before ++ front)

theorem forall_split_cons {l : LaidLine} {lines}
    {R : List LaidLine → LaidLine → List LaidLine → Prop} :
    (∀ front x back, l :: lines = front ++ x :: back → R front x back) ↔
      R [] l lines ∧ ∀ front x back, lines = front ++ x :: back → R (l :: front) x back := by
  constructor
  · intro h
    refine ⟨h [] l lines rfl, fun front x back heq => h (l :: front) x back ?_⟩
    rw [heq, List.cons_append]
  · rintro ⟨hl, hlines⟩ front x back heq
    cases front with
    | nil =>
      cases heq
      exact hl
    | cons _ front =>
      cases heq
      exact hlines front x back rfl

theorem headersFilled_nil : HeadersFilled [] := by
  intro front l back h
  simp at h

theorem headersFilled_cons {l lines} : HeadersFilled (l :: lines) ↔ (l.role.isHeader = true →
      ∃ next rest, lines = next :: rest ∧ next.depth = l.depth + 1 ∧ next.role ≠ .gap) ∧
      HeadersFilled lines :=
  forall_split_cons

theorem HeadersFilled.append {ls ms} (hls : HeadersFilled ls) (hms : HeadersFilled ms) :
    HeadersFilled (ls ++ ms) := by
  induction ls with
  | nil => exact hms
  | cons l ls ih =>
    obtain ⟨hl, hls⟩ := headersFilled_cons.1 hls
    refine headersFilled_cons.2 ⟨fun h => ?_, ih hls⟩
    obtain ⟨next, rest, rfl, hnext⟩ := hl h
    exact ⟨next, rest ++ ms, rfl, hnext⟩

theorem branchesContinue_nil : BranchesContinue before [] := by
  intro front l back h
  simp at h

theorem branchesContinue_cons {l lines} : BranchesContinue before (l :: lines) ↔
      (l.role.isFurther = true → OpenAt l.depth before) ∧
      BranchesContinue (before ++ [l]) lines := by
  simp only [BranchesContinue, forall_split_cons, List.append_nil, List.append_assoc,
    List.singleton_append]

theorem BranchesContinue.append {ls ms} (hls : BranchesContinue before ls)
    (hms : BranchesContinue (before ++ ls) ms) : BranchesContinue before (ls ++ ms) := by
  induction ls generalizing before with
  | nil => simpa using hms
  | cons l ls ih =>
    obtain ⟨hl, hls⟩ := branchesContinue_cons.1 hls
    exact branchesContinue_cons.2 ⟨hl, ih hls (by simpa using hms)⟩

theorem markLast_eq (depth : Nat) (role : LineRole) {lines} (h : lines ≠ []) :
    markLast depth role lines = lines.dropLast.map ({ depth, role := .plain, text := · })
      ++ [{ depth, role, text := lines.getLast h }] := by
  fun_induction markLast depth role lines with
  | case1 => exact absurd rfl h
  | case2 line => rfl
  | case3 line rest hrest ih =>
    have hne : rest ≠ [] := fun hnil => hrest (hnil ▸ rfl)
    rw [ih hne, List.dropLast_cons_of_ne_nil hne, List.getLast_cons hne]
    rfl

theorem depth_markLast {depth role lines l} (h : l ∈ markLast depth role lines) :
    l.depth = depth := by
  fun_induction markLast depth role lines with
  | case1 => cases h
  | case2 line => rw [List.mem_singleton.1 h]
  | case3 line rest _ ih =>
    obtain rfl | h := List.mem_cons.1 h
    · rfl
    · exact ih h

mutual

/-- No line of a node stands further to the left than the node. -/
theorem le_depth_layout (depth : Nat) : (n : Node) → ∀ l ∈ n.layout depth, depth ≤ l.depth
  | { tags, lines, children }, l, hl => by
    rw [layout] at hl
    obtain hl | hl := List.mem_append.1 hl
    · exact Nat.le_of_eq (depth_markLast hl).symm
    · have := le_depth_layoutAll _ children l hl
      split at this <;> omega

theorem le_depth_layoutAll (depth : Nat) :
    (nodes : List Node) → ∀ l ∈ layoutAll depth nodes, depth ≤ l.depth
  | [], l, hl => by cases hl
  | n :: rest, l, hl => by
    rw [layoutAll] at hl
    split at hl
    · cases hl
    · obtain hl | hl := List.mem_append.1 hl
      · exact le_depth_layout depth n l hl
      · exact le_depth_layoutAll depth rest l hl

end

theorem role_isHeader (n : Node) : n.role.isHeader = n.isBlock := by
  unfold role isBlock branchRole
  split
  · next h =>
    rw [h, Bool.or_true]
    repeat' split
    all_goals rfl
  · next h =>
    rw [Bool.not_eq_true] at h
    rw [h, Bool.or_false]
    split
    · next hdef => rw [hdef]; rfl
    · next hdef =>
      rw [Bool.not_eq_true] at hdef
      rw [hdef]
      split <;> rfl

theorem isHeader_of_isFurther {r : LineRole} (h : r.isFurther = true) : r.isHeader = true := by
  cases r <;> first | rfl | cases h

theorem isHeader_of_isOpen {r : LineRole} (h : r.isOpen = true) : r.isHeader = true := by
  cases r <;> first | rfl | cases h

theorem contains_if_of_role (h : n.role.isFurther = true ∨ n.role.isOpen = true) :
    n.tags.contains .if = true := by
  unfold role at h
  split at h
  · assumption
  · repeat' split at h
    all_goals simp [LineRole.isFurther, LineRole.isOpen] at h

theorem layout_head (depth : Nat) (hspacer : n.isSpacer = false) (hlines : n.lines ≠ []) :
    ∃ first rest, n.layout depth = first :: rest ∧ first.depth = depth ∧
    first.role ≠ .gap := by
  have hrole : n.role ≠ .gap := by
    unfold role branchRole
    repeat' split
    all_goals simp_all
  rw [layout_eq, markLast_eq depth n.role hlines]
  cases n.lines.dropLast with
  | nil => exact ⟨_, _, rfl, rfl, hrole⟩
  | cons line rest => exact ⟨_, _, rfl, rfl, by simp⟩

theorem layoutAll_head {first rest} (depth : Nat) (hspacer : first.isSpacer = false)
    (hlines : first.lines ≠ []) :
    ∃ next more, layoutAll depth (first :: rest) = next :: more ∧ next.depth = depth ∧
      next.role ≠ .gap := by
  obtain ⟨next, more, heq, hnext⟩ := layout_head depth hspacer hlines
  rw [layoutAll, hspacer, Bool.false_and, if_neg Bool.false_ne_true, heq]
  exact ⟨next, more ++ layoutAll depth rest, rfl, hnext⟩

theorem plain_headersFilled (depth : Nat) (lines : List String) :
    HeadersFilled (lines.map ({ depth, role := .plain, text := · })) := by
  induction lines with
  | nil => exact headersFilled_nil
  | cons line lines ih => exact headersFilled_cons.2 ⟨nofun, ih⟩

mutual

theorem layout_headersFilled (depth : Nat) :
    (n : Node) → (∀ m ∈ n.preorder, m.Shaped) → HeadersFilled (n.layout depth)
  | { tags, lines, children }, h => by
    rw [preorder, List.forall_mem_cons] at h
    obtain ⟨hshaped, hinner⟩ := h
    have hchildren := fun depth => layoutAll_headersFilled depth children hinner
    rw [layout]
    by_cases hlines : lines = []
    · subst hlines
      exact hchildren _
    · rw [markLast_eq _ _ hlines, List.append_assoc]
      refine (plain_headersFilled depth _).append (headersFilled_cons.2 ⟨fun hheader =>
        ?_, hchildren _⟩)
      -- the header of a block, whose first line is one level deeper
      obtain ⟨hmodule, _, first, rest, rfl, hspacer, hfirst⟩ :=
        hshaped.block (by rwa [← role_isHeader])
      rw [if_neg (by simpa using hmodule)]
      exact layoutAll_head (depth + 1) hspacer hfirst

theorem layoutAll_headersFilled (depth : Nat) : (nodes : List Node) →
    (∀ m ∈ preorderAll nodes, m.Shaped) → HeadersFilled (layoutAll depth nodes)
  | [], _ => headersFilled_nil
  | n :: rest, h => by
    rw [preorderAll, List.forall_mem_append] at h
    rw [layoutAll]
    split
    · exact headersFilled_nil
    · exact (layout_headersFilled depth n h.1).append (layoutAll_headersFilled depth rest h.2)

end

theorem plain_branchesContinue (depth : Nat) (before : List LaidLine) (lines : List String) :
    BranchesContinue before (lines.map ({ depth, role := .plain, text := · })) := by
  induction lines generalizing before with
  | nil => exact branchesContinue_nil
  | cons line lines ih => exact branchesContinue_cons.2 ⟨nofun, ih _⟩

/-- Behind an `if` or `elif` with everything inside of it, the statement can be continued. -/
theorem openAt_layout (hshaped : n.Shaped) (hopen : n.role.isOpen = true) (depth : Nat)
    (before : List LaidLine) : OpenAt depth (before ++ n.layout depth) := by
  obtain ⟨line, hline⟩ := hshaped.branch (contains_if_of_role (.inr hopen))
  obtain ⟨hmodule, _⟩ := hshaped.block (role_isHeader n ▸ isHeader_of_isOpen hopen)
  rw [layout_eq, hline, if_neg (by simpa using hmodule)]
  refine ⟨before, { depth, role := n.role, text := line }, layoutAll (depth + 1) n.children, rfl,
    rfl, hopen, fun l hl => ?_⟩
  exact Nat.lt_of_succ_le (le_depth_layoutAll (depth + 1) n.children l hl)

mutual

/-- In the layout of a shaped tree `elif` and `else` continue an `if`. -/
theorem layout_branchesContinue (depth : Nat) (before : List LaidLine) :
    (n : Node) → (∀ m ∈ n.preorder, m.Shaped) →
      (n.role.isFurther = true → OpenAt depth before) → BranchesContinue before (n.layout depth)
  | { tags, lines, children }, h, hopen => by
    rw [preorder, List.forall_mem_cons] at h
    obtain ⟨hshaped, hinner⟩ := h
    have hchildren := fun depth before =>
      layoutAll_branchesContinue depth before none children hinner
      hshaped.follow nofun
    rw [layout]
    by_cases hfurther : (role { tags, lines, children }).isFurther = true
    · -- a further branch has no lines in front of its header
      obtain ⟨line, rfl⟩ : ∃ line, lines = [line] :=
        hshaped.branch (contains_if_of_role (.inl hfurther))
      exact branchesContinue_cons.2 ⟨hopen, hchildren _ _⟩
    · by_cases hlines : lines = []
      · subst hlines
        exact hchildren _ _
      · rw [markLast_eq _ _ hlines, List.append_assoc]
        refine (plain_branchesContinue depth before _).append ?_
        exact branchesContinue_cons.2 ⟨fun h => absurd h hfurther, hchildren _ _⟩

theorem layoutAll_branchesContinue (depth : Nat) (before : List LaidLine) (prev : Option Node) :
    (nodes : List Node) → (∀ m ∈ preorderAll nodes, m.Shaped) → Follow prev nodes →
      (∀ p, prev = some p → p.role.isOpen = true → OpenAt depth before) →
      BranchesContinue before (layoutAll depth nodes)
  | [], _, _, _ => branchesContinue_nil
  | n :: rest, h, hfollow, hopen => by
    rw [preorderAll, List.forall_mem_append] at h
    rw [layoutAll]
    split
    · exact branchesContinue_nil
    · have hshaped : n.Shaped := h.1 n (by rw [preorder_eq]; exact List.mem_cons_self)
      refine (layout_branchesContinue depth before n h.1 fun hn => ?_).append ?_
      · obtain ⟨p, hp, hrole⟩ := hfollow.1.branch hn
        exact hopen p hp hrole
      · refine layoutAll_branchesContinue depth _ (some n) rest h.2 hfollow.2 fun p hp hrole => ?_
        cases hp
        exact openAt_layout hshaped hrole depth before

end

end Node

namespace Session

open Node

variable {s : Session} {parentTags : List Tag} {last : Option (List Tag)} {nodes : List Node}

/-- What may stand in front of nodes, which start with further branches or not. -/
def admits : (further : Bool) → Option Node → Prop
  | false => anywhere
  | true => behindBranch

theorem admits_of_imp {further prev} (h : further = true → behindBranch prev) :
    admits further prev := by
  cases further with
  | false => trivial
  | true => exact h rfl

theorem Forest.tidy {further} (h : s.Forest parentTags further nodes) :
    Tidy (admits further) nodes := by
  induction h with
  | nil => exact .nil
  | @leaf _ _ n _ hn hspacer hblock hchildren _ ih =>
    have hplain {prev} : MayFollow prev n := by
      refine ⟨fun h => (nomatch hspacer.symm.trans h), fun h => ?_⟩
      rw [← role_isHeader, isHeader_of_isFurther h] at hblock
      cases hblock
    exact .cons (shaped_of_childless hchildren hblock) (by simp [hchildren, preorderAll]) hspacer
      (hn.visible hspacer).lines (fun _ _ => hplain) ih.shaped (ih.follow _ trivial)
  | definition hn htag hne _ _ ihchildren ih =>
    have hspacer : ∀ m ∈ spacer.preorder, m.Shaped :=
      List.forall_mem_cons.2 ⟨shaped_of_childless rfl rfl, nofun⟩
    obtain rfl | rfl := htag
    all_goals
      have hlines := (hn.visible rfl).lines
      exact .cons (shaped_of_children rfl rfl hlines nofun hne ihchildren)
        ihchildren.shaped rfl hlines (fun _ _ => ⟨nofun, nofun⟩)
        (List.forall_mem_append.2 ⟨hspacer, ih.shaped⟩)
        ⟨⟨fun _ => ⟨_, rfl, rfl⟩, nofun⟩, ih.follow _ trivial⟩
  | branch hline hfurther hne _ _ ihchildren ih =>
    refine .cons (shaped_of_children rfl rfl (List.cons_ne_nil _ _) (fun _ =>
      ⟨_, rfl⟩) hne ihchildren)
      ihchildren.shaped rfl (List.cons_ne_nil _ _) (fun prev hprev =>
        ⟨nofun, fun h => ?_⟩) ih.shaped
      (ih.follow _ (admits_of_imp fun hopen => ⟨_, rfl, hopen⟩))
    obtain rfl := hfurther h
    exact hprev

theorem Grows.tidy {part} (h : s.Grows part nodes) : Tidy (admits part.isFurther) nodes :=
  h.forest.tidy

/-! ## The branches of an `if` statement -/

/-- What the header of a branch asks. -/
inductive BranchHead
  | opening (test : Expr)
  | elseIf (test : Expr)
  | otherwise

/-- The line of a header. -/
def BranchHead.IsLine : BranchHead → String → Prop
  | .opening test, line =>
    ∃ condition, test.render = .ok condition ∧ line = "if " ++ condition ++ ":"
  | .elseIf test, line =>
    ∃ condition, test.render = .ok condition ∧ line = "elif " ++ condition ++ ":"
  | .otherwise, line => line = "else:"

/-- A node is the branch with a header. -/
def IsBranch (n : Node) (head : BranchHead) : Prop :=
  n.tags = [.if] ∧ ∃ line, n.lines = [line] ∧ head.IsLine line

/-- The headers of the further branches of an `if` statement. A single `if` statement behind `else`
is an `elif`. -/
def furtherHeads : List Stmt → List BranchHead
  | [] => []
  | [.ifElse _ test _ orelse] => .elseIf test :: furtherHeads orelse
  | _ :: _ => [.otherwise]

theorem Grows.furtherHeads {part} (h : s.Grows part nodes) :
    ∀ stmts, part = .orelse parentTags stmts →
      List.Forall₂ IsBranch nodes (furtherHeads stmts) := by
  induction h with
  | noBranch =>
    rintro _ ⟨⟩
    rw [Session.furtherHeads]
    exact .nil
  | elif htest _ _ _ _ ihelse =>
    rintro _ ⟨⟩
    rw [Session.furtherHeads]
    exact .cons ⟨rfl, _, rfl, _, htest, rfl⟩ (ihelse _ rfl)
  | orelse hnot _ _ _ =>
    rintro _ ⟨⟩
    rw [Session.furtherHeads]
    · exact .cons ⟨rfl, _, rfl, rfl⟩ .nil
    · rintro span test body orelse rfl rfl
      exact hnot span test body orelse rfl
  | _ => nofun

/-- What an `if` statement becomes if it is kept: what its body leaves in front of it, if it is
flattened, and then its branches. -/
theorem stub_if_kept {span test body orelse}
    (hkeep : s.config.keepIfStatements.Holds (s.context parentTags [.if]))
    (h : (s.stub parentTags last (.ifElse span test body orelse)).outcome = .ok nodes) :
    ∃ outer branches, nodes = outer ++ branches ∧
      List.Forall₂ IsBranch branches (.opening test :: furtherHeads orelse) := by
  cases stub_grows _ _ _ h with
  | skipped hskip => cases hskip
  | ifDropped _ _ hdrop | ifFlattened _ _ _ hdrop => exact nomatch hkeep.symm.trans hdrop
  | ifKept htest _ _ _ _ hmore =>
    exact ⟨[], _, rfl, .cons ⟨rfl, _, rfl, _, htest, rfl⟩ (hmore.furtherHeads _ rfl)⟩
  | ifKeptFlattened htest _ _ _ _ hmore =>
    exact ⟨_, _, rfl, .cons ⟨rfl, _, rfl, _, htest, rfl⟩ (hmore.furtherHeads _ rfl)⟩

/-- What a statement of a block becomes stands together among what the block becomes. -/
theorem stubAll_split {stmt before after}
    (h : (s.stubAll parentTags last (before ++ stmt :: after)).outcome = .ok nodes) :
    ∃ last front mid back, (s.stub parentTags last stmt).outcome = .ok mid ∧
      nodes = front ++ mid ++ back := by
  induction before generalizing last nodes with
  | nil =>
    rw [List.nil_append, stubAll] at h
    obtain ⟨mid, hmid, h⟩ := outcome_bind_ok.1 h
    obtain ⟨back, _, h⟩ := outcome_bind_ok.1 h
    cases h
    exact ⟨last, [], mid, back, hmid, rfl⟩
  | cons first before ih =>
    rw [List.cons_append, stubAll] at h
    obtain ⟨front, _, h⟩ := outcome_bind_ok.1 h
    obtain ⟨more, hmore, h⟩ := outcome_bind_ok.1 h
    cases h
    obtain ⟨last, front', mid, back, hmid, rfl⟩ := ih hmore
    exact ⟨last, front ++ front', mid, back, hmid, by simp⟩

end Session

namespace Node

/-! ## The whole tree -/

theorem follow_split {prev front back n} (h : Follow prev (front ++ n :: back)) :
    (front = [] ∧ MayFollow prev n) ∨ ∃ rest p, front = rest ++ [p] ∧
    MayFollow (some p) n := by
  induction front generalizing prev with
  | nil => exact .inl ⟨rfl, h.1⟩
  | cons m front ih =>
    obtain ⟨rfl, hm⟩ | ⟨rest, p, rfl, hp⟩ := ih h.2
    · exact .inr ⟨[], m, rfl, hm⟩
    · exact .inr ⟨m :: rest, p, rfl, hp⟩

/-- The structure of the blocks of a stub: what the nodes of the tree have inside, how they stand
behind each other, and what this means for the lines. -/
structure BlockStructure (root : Node) : Prop where
  filled : ∀ n ∈ root.preorder, n.isBlock = true →
    n.children.rdropWhile isSpacer ≠ [] ∧
      ∃ first rest, n.children = first :: rest ∧ first.isSpacer = false ∧ first.lines ≠ []
  single : ∀ n ∈ root.preorder, n.isSingle = true → n.children = []
  spacers : ∀ n ∈ root.preorder, ∀ front gap back, n.children = front ++ gap :: back →
    gap.isSpacer = true →
      ∃ rest d, front = rest ++ [d] ∧
      (d.tags.contains .classDef || d.tags.contains .function) = true
  branches : ∀ n ∈ root.preorder, ∀ front b back, n.children = front ++ b :: back →
    b.role.isFurther = true → ∃ rest p, front = rest ++ [p] ∧ p.role.isOpen = true
  lines : root.render 0 = (root.layout 0).map fun l => indentedLine l.depth l.text
  headers : HeadersFilled (root.layout 0)
  chains : BranchesContinue [] (root.layout 0)

theorem blockStructure_of_shaped {root : Node} (h : ∀ n ∈ root.preorder, n.Shaped)
    (hroot : root.isBlock = false) : BlockStructure root where
  filled := fun n hn hblock => by
    obtain ⟨_, _, first, rest, hcons, hspacer, hlines⟩ := (h n hn).block hblock
    refine ⟨fun hnil => ?_, first, rest, hcons, hspacer, hlines⟩
    have hfirst := List.rdropWhile_eq_nil_iff.1 hnil first (by simp [hcons])
    exact nomatch hspacer.symm.trans hfirst
  single := fun n hn => (h n hn).single
  spacers := fun n hn front gap back heq hgap => by
    obtain ⟨_, hnone⟩ | ⟨rest, p, hfront, hp⟩ := follow_split (heq ▸ (h n hn).follow)
    · obtain ⟨_, hp, _⟩ := hnone.spacer hgap
      cases hp
    · obtain ⟨d, hd, hdef⟩ := hp.spacer hgap
      cases hd
      exact ⟨rest, p, hfront, hdef⟩
  branches := fun n hn front b back heq hb => by
    obtain ⟨_, hnone⟩ | ⟨rest, p, hfront, hp⟩ := follow_split (heq ▸ (h n hn).follow)
    · obtain ⟨_, hp, _⟩ := hnone.branch hb
      cases hp
    · obtain ⟨d, hd, hopen⟩ := hp.branch hb
      cases hd
      exact ⟨rest, p, hfront, hopen⟩
  lines := render_eq_layout 0 root
  headers := layout_headersFilled 0 root h
  chains := layout_branchesContinue 0 [] root h fun hfurther => by
    rw [← role_isHeader, isHeader_of_isFurther hfurther] at hroot
    cases hroot

end Node

namespace Session

open Node

/-- Every stub has the structure of blocks, and every `if` statement of a block that is kept becomes
a row of branches: one for `if`, one for each `elif`, and one for `else` if the statement ends in
such a part. -/
theorem stubModule_blocks {s : Session} {m : Module} {root : Node}
    (h : (s.stubModule m).outcome = .ok root) : BlockStructure root ∧
      ∀ parentTags last before span test body orelse after nodes,
        s.config.keepIfStatements.Holds (s.context parentTags [.if]) →
        (s.stubAll parentTags last (before ++ .ifElse span test body orelse :: after)).outcome
          = .ok nodes →
        ∃ front branches back, nodes = front ++ branches ++ back ∧
          List.Forall₂ IsBranch branches (.opening test :: furtherHeads orelse) := by
  constructor
  · obtain ⟨children, hchildren, rfl⟩ := stubModule_grows h
    have htidy := hchildren.tidy
    refine blockStructure_of_shaped ?_ rfl
    rw [preorder, List.forall_mem_cons]
    exact ⟨⟨nofun, nofun, nofun, htidy.follow none trivial⟩, htidy.shaped⟩
  · intro parentTags last before span test body orelse after nodes hkeep hnodes
    obtain ⟨last', front, mid, back, hmid, rfl⟩ := stubAll_split hnodes
    obtain ⟨outer, branches, rfl, hbranches⟩ := stub_if_kept hkeep hmid
    exact ⟨front ++ outer, branches, back, by simp, hbranches⟩

/-- Whether a module has a single statement in front of an `if` statement. -/
def endsInIf (m : Module) : Bool :=
  match m.body with
  | [_, .ifElse ..] => true
  | _ => false

theorem endsInIf_eq_true {m} (h : endsInIf m = true) :
    ∃ before span test body orelse, m.body = before ++ [.ifElse span test body orelse] := by
  unfold endsInIf at h
  split at h
  · next first span test body orelse heq => exact ⟨[first], span, test, body, orelse, heq⟩
  · cases h

theorem stubModule_blocks_on_sample : ∃ config m root before span test body orelse,
      keepDefinitionsConfig.validate = .ok config ∧
      (Stub.sampleSource nestedSample).readModule = .ok m ∧
      (stubModule ⟨Stub.sampleSource nestedSample, config, false, none⟩ m).outcome
      = .ok root ∧
      ((root.layout 0).filter (·.role.isHeader)).length = 6 ∧ BlockStructure root ∧
      m.body = before ++ [.ifElse span test body orelse] ∧
      ∃ front branches back, root.children = front ++ branches ++ back ∧
        List.Forall₂ IsBranch branches (.opening test :: furtherHeads orelse) := by
  have hsample : (sampleStub? nestedSample).map
      (fun x => (((x.2.2.layout 0).filter (·.role.isHeader)).length, endsInIf x.2.1))
        = some (6, true) := by decide +kernel
  obtain ⟨⟨config, m, root⟩, hstub, hvalue⟩ := Option.map_eq_some_iff.1 hsample
  obtain ⟨hcount, hif⟩ := Prod.mk.inj hvalue
  obtain ⟨hconfig, _, hifs, hm, hroot⟩ := sampleStub?_eq_some hstub
  obtain ⟨before, span, test, body, orelse, hbody⟩ := endsInIf_eq_true hif
  obtain ⟨children, hchildren, rfl⟩ := stubModule_ok hroot
  obtain ⟨hblocks, hbranches⟩ := stubModule_blocks hroot
  exact ⟨config, m, _, before, span, test, body, orelse, hconfig, hm, hroot, hcount,
    hblocks, hbody, hbranches _ _ _ _ _ _ _ _ _ (hifs _) (hbody ▸ hchildren)⟩

end Session

end TypeStub
