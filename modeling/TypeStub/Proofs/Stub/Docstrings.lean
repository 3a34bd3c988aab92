import TypeStub.Proofs.Stub.Forest
import TypeStub.Proofs.Stub.Locality
import TypeStub.Proofs.Stub.Noninterference
/-!
# Which element a string documents

A string that is kept stands behind the nodes of the statement in front of it, empty lines aside
(`docstring_behind`). But whether it is kept is read off the last node of its parent, whatever
statement left that: a string behind a statement that leaves nothing goes with an element further
up, and if there is none it is kept (`docstring_of_pruned`).
-/

namespace TypeStub

open TypeStub.Syntax StubM

namespace Syntax

/-- The blocks inside of a statement that stubbing looks at. -/
def Stmt.bodies : Stmt → List (List Stmt)
  | .classDef _ _ body | .functionDef _ _ body | .tryBlock _ _ body ..
  | .withBlock _ _ _ body _ => [body]
  | .ifElse _ _ body orelse => [body, orelse]
  | _ => []

/-- A block inside of another one, at any depth. -/
inductive Nested (outer : List Stmt) : List Stmt → Prop
  | self : Nested outer outer
  | step {block stmt body} :
      Nested outer block → stmt ∈ block → body ∈ stmt.bodies → Nested outer body

end Syntax

namespace Session

def Part.last : Part → Option (List Tag)
  | .stmt _ last _ | .block _ last _ => last
  | .orelse .. => none

variable {s : Session} {parentTags : List Tag} {last : Option (List Tag)} {nodes : List Node}
  {front rest : List Stmt} {stmt : Stmt} {span : Span} {value : Expr}

theorem stubAll_append_ok (h : (s.stubAll parentTags last (front ++ rest)).outcome = .ok nodes) :
    ∃ before after, (s.stubAll parentTags last front).outcome = .ok before ∧
      (s.stubAll parentTags ((Node.lastTags before).or last) rest).outcome = .ok after ∧
      nodes = before ++ after := by
  induction front generalizing last nodes with
  | nil => exact ⟨[], nodes, rfl, h, rfl⟩
  | cons stmt more ih =>
    rw [List.cons_append, stubAll] at h
    obtain ⟨own, hown, h⟩ := outcome_bind_ok.1 h
    obtain ⟨_, hmore, h⟩ := outcome_bind_ok.1 h
    cases h
    obtain ⟨before, after, hbefore, hafter, rfl⟩ := ih hmore
    refine ⟨own ++ before, after, ?_, ?_, (List.append_assoc ..).symm⟩
    · rw [stubAll, outcome_bind_of_ok hown, outcome_bind_of_ok hbefore]
      rfl
    · rwa [Node.lastTags_append, Option.or_assoc]

/-- A statement does not leave empty lines alone. -/
theorem exists_shown (h : s.Grows (.stmt parentTags last stmt) nodes) (hne : nodes ≠ []) :
    ∃ n ∈ nodes, n.isSpacer = false := by
  have hforest := h.forest
  cases hforest with
  | nil => exact absurd rfl hne
  | leaf _ hspacer => exact ⟨_, List.mem_cons_self, hspacer⟩
  | definition _ htag =>
    refine ⟨_, List.mem_cons_self, ?_⟩
    obtain rfl | rfl := htag <;> rfl
  | branch => exact ⟨_, List.mem_cons_self, rfl⟩

/-- What stands in front of some statements of a block: they begin it, or the nodes end with those
of the statement before. -/
def Behind (s : Session) (parentTags : List Tag) (last : Option (List Tag)) (front : List Stmt)
    (pre : List Node) : Prop :=
  front = [] ∨ ∃ stmt own last', front.getLast? = some stmt ∧
    s.Grows (.stmt parentTags last' stmt) own ∧
    (own ≠ [] → ∃ n ∈ own, n.isSpacer = false) ∧
    own <:+ pre ∧ last = (Node.lastTags own).or last'

/-- A node is that of a string in some block, behind the nodes of the statement in front. -/
def Tells (s : Session) (root : List Stmt) (pre : List Node) (n : Node) : Prop :=
  ∃ block front span value rest parentTags last, Nested root block ∧
    block = front ++ .expr span value :: rest ∧ value.isString = true ∧
    s.DocOf parentTags last span [n] ∧ s.Behind parentTags last front pre

/-- All nodes of documentation strings, at every depth, are such. -/
inductive Strings (s : Session) (root : List Stmt) : (pre nodes : List Node) → Prop
  | nil {pre} : Strings s root pre []
  | cons {pre n rest} : (.docstring ∈ n.tags → s.Tells root pre n) →
      Strings s root [] n.children → Strings s root (pre ++ [n]) rest →
      Strings s root pre (n :: rest)

variable {root : List Stmt} {pre more inner : List Node} {part part' : Part}

theorem Strings.append (h : s.Strings root pre nodes) (hmore : s.Strings root (pre ++ nodes) more) :
    s.Strings root pre (nodes ++ more) := by
  induction h with
  | nil => simpa using hmore
  | cons hn hchildren _ _ ih => exact .cons hn hchildren (ih (by simpa using hmore))

theorem Strings.plain {n : Node} (hn : .docstring ∉ n.tags)
    (hchildren : s.Strings root [] n.children)
    (hmore : ∀ pre, s.Strings root pre more) : s.Strings root pre (n :: more) :=
  .cons (absurd · hn) hchildren (hmore _)

theorem Strings.withEllipsis {tags name children} (h : s.Strings root [] inner)
    (hchildren : (s.withEllipsis parentTags tags name inner).outcome = .ok children) :
    s.Strings root [] children := by
  have hmark : ∀ pre, s.Strings root pre [Node.ellipsis] := fun _ =>
    .plain (by decide) .nil fun _ => .nil
  obtain ⟨-, rfl⟩ | ⟨-, rfl | rfl⟩ := withEllipsis_ok hchildren
  · exact hmark _
  · exact h
  · exact h.append (hmark _)

/-- A part of the source, and the nodes in front of its own. Further branches are a block. -/
def At (s : Session) (root : List Stmt) (part : Part) (pre : List Node) : Prop :=
  ∃ block front rest, Nested root block ∧ block = front ++ part.stmts ++ rest ∧
    (part.isFurther = true → front = []) ∧ s.Behind part.parentTags part.last front pre

theorem At.enter (h : s.At root part pre) (hstmt : stmt ∈ part.stmts)
    (hbody : part'.stmts ∈ stmt.bodies) (pre' : List Node) : s.At root part' pre' := by
  obtain ⟨block, front, rest, hblock, rfl, -⟩ := h
  exact ⟨_, [], [], hblock.step (by simp [hstmt]) hbody, by simp, fun _ => rfl, .inl rfl⟩

theorem DocOf.strings (h : s.DocOf parentTags last span nodes)
    (htells : ∀ n, nodes = [n] → s.Tells root pre n) : s.Strings root pre nodes := by
  obtain ⟨-, rfl⟩ | ⟨-, text, -, rfl⟩ := h
  · exact .nil
  · exact .cons (fun _ => htells _ rfl) .nil .nil

theorem functionDoc_strings {body} (hbody : Nested root body)
    (h : (s.functionDoc body).outcome = .ok nodes) : s.Strings root [] nodes := by
  obtain rfl | ⟨_, _, _, rfl, hvalue, hdoc⟩ := functionDoc_ok h
  · exact .nil
  · refine hdoc.strings ?_
    rintro n rfl
    exact ⟨_, [], _, _, _, _, _, hbody, rfl, hvalue, hdoc, .inl rfl⟩

/-- What one statement, block or branch adds. -/
theorem Grows.strings (h : s.Grows part nodes) (hat : s.At root part pre) :
    s.Strings root pre nodes := by
  have hspacer : ∀ pre, s.Strings root pre [Node.spacer] := fun _ =>
    .plain (by decide) .nil fun _ => .nil
  induction h generalizing pre with
  | imports h | importFrom h =>
    obtain ⟨_, _, ⟨_, rfl⟩ | ⟨_, _, _, _, rfl⟩⟩ := stubImport_ok h
    · exact .nil
    · exact .plain (by simp [Node.leaf]) .nil fun _ => .nil
  | assign h | annAssign h =>
    obtain ⟨_, _, ⟨_, rfl⟩ | ⟨_, _, _, _, _, _, _, ⟨_, rfl⟩ | ⟨_, rfl⟩⟩⟩ :=
      stubAssign_ok h
    · exact .nil
    · exact .nil
    · refine .plain ?_ .nil fun _ => .nil
      simp only [variableContext, context]
      split <;> split <;> simp
  | functionDef h =>
    obtain ⟨_, rfl⟩ | ⟨_, _, _, doc, children, _, _, hdoc, hchildren, rfl⟩ :=
      stubFunction_ok h
    · exact .nil
    · obtain ⟨block, front, rest, hblock, rfl, -⟩ := hat
      have hbody := hblock.step (List.mem_append_left _ (List.mem_append_right _
        (List.mem_singleton_self _))) (List.mem_singleton_self _)
      exact .plain (by simp) ((functionDoc_strings hbody hdoc).withEllipsis hchildren) hspacer
  | classPruned | skipped | ifDropped | nil | noBranch => exact .nil
  | classDef _ _ _ _ hchildren ih =>
    have hinner := ih (hat.enter List.mem_cons_self List.mem_cons_self [])
    exact .plain (by simp) (hinner.withEllipsis hchildren) hspacer
  | string hvalue h =>
    obtain ⟨block, front, rest, hblock, rfl, -, hbehind⟩ := hat
    refine (stubString_ok h).strings ?_
    rintro n rfl
    exact ⟨_, front, _, _, rest, _, _,
      hblock, by simp [Part.stmts], hvalue, stubString_ok h, hbehind⟩
  | ifFlattened _ _ _ _ ih | tryBlock _ ih | withBlock _ ih =>
    exact ih (hat.enter List.mem_cons_self List.mem_cons_self _)
  | ifKept _ _ _ _ hchildren _ ih ihs | elif _ _ hchildren _ ih ihs =>
    have hinner := ih (hat.enter List.mem_cons_self List.mem_cons_self [])
    exact .plain (by simp) (hinner.withEllipsis hchildren) fun pre =>
      ihs (hat.enter List.mem_cons_self (by simp [Part.stmts, Stmt.bodies]) pre)
  | ifKeptFlattened _ _ _ _ hchildren _ ih ihs =>
    have houter := ih (hat.enter List.mem_cons_self List.mem_cons_self pre)
    refine houter.append (.plain (by simp) (Strings.nil.withEllipsis hchildren) fun pre => ?_)
    exact ihs (hat.enter List.mem_cons_self (by simp [Part.stmts, Stmt.bodies]) pre)
  | @cons parentTags last stmt _ own _ hstmt _ ih ihs =>
    obtain ⟨block, front, rest, hblock, rfl, -, hbehind⟩ := hat
    refine (ih ⟨_, front, _, hblock, by simp [Part.stmts]; rfl, by simp [Part.isFurther],
      hbehind⟩).append (ihs ⟨_, front ++ [stmt], rest, hblock, by simp [Part.stmts],
        by simp [Part.isFurther], .inr ?_⟩)
    exact ⟨stmt, own, last, by simp, hstmt, exists_shown hstmt, List.suffix_append .., rfl⟩
  | orelse _ _ hchildren ih =>
    obtain ⟨block, front, rest, hblock, rfl, hfront, -⟩ := hat
    have hinner := @ih [] ⟨_, front, rest, hblock, rfl, by simp [Part.isFurther],
      .inl (hfront rfl)⟩
    exact .plain (by simp) (hinner.withEllipsis hchildren) fun _ => .nil

/-- **A string stands behind the statement that it documents.** Each node of a string, at every
depth of the tree, is that of a string in some block, behind the nodes of the statement in front.
The nodes of the block itself are those of the statements in front, those of the statement before a
string, that of the string if it is kept, and those of the rest. It is kept or not for the last node
in front of it, which is one of the statement unless that leaves none. -/
theorem docstring_behind (h : (s.stubAll parentTags last root).outcome = .ok nodes) :
    s.Strings root [] nodes ∧ ∀ {front stmt span value rest},
      root = front ++ stmt :: .expr span value :: rest → value.isString = true →
      ∃ before own doc after, nodes = before ++ (own ++ (doc ++ after)) ∧
        (s.stubAll parentTags last front).outcome = .ok before ∧
        (s.stub parentTags ((Node.lastTags before).or last) stmt).outcome = .ok own ∧
        (own ≠ [] → ∃ n ∈ own, n.isSpacer = false) ∧
        s.DocOf parentTags ((Node.lastTags own).or ((Node.lastTags before).or last)) span doc := by
  refine ⟨(stubAll_grows _ _ _ h).strings ⟨_, [], [], .self, by simp [Part.stmts], fun _ => rfl,
    .inl rfl⟩, ?_⟩
  rintro front stmt span value rest rfl hvalue
  obtain ⟨before, _, hbefore, hrest, rfl⟩ := stubAll_append_ok h
  rw [stubAll] at hrest
  obtain ⟨own, hown, h⟩ := outcome_bind_ok.1 hrest
  obtain ⟨_, hmore, h⟩ := outcome_bind_ok.1 h
  cases h
  rw [stubAll, stub, if_pos hvalue] at hmore
  obtain ⟨doc, hdoc, h⟩ := outcome_bind_ok.1 hmore
  obtain ⟨after, hafter, h⟩ := outcome_bind_ok.1 h
  cases h
  exact ⟨before, own, doc, after, rfl, hbefore, hown, exists_shown (stub_grows _ _ _ hown),
    stubString_ok hdoc⟩

def documented (config : ValidConfig) : Session :=
  ⟨Stub.sampleSource "x = y\n'it'\n", config, false, none⟩

def documentedVariable : Stmt :=
  .assign ⟨1, 0, 1, 5⟩ [.name ⟨1, 0, 1, 1⟩ "x" .store] (.name ⟨1, 4, 1,
    5⟩ "y" .load) none

def documentingString : Expr := .constant ⟨2, 0, 2, 4⟩ (.str [105, 116] false)

theorem docstring_behind_on_sample : ∃ config nodes before own doc after,
    Stub.keepPublic.validate = .ok config ∧ documentingString.isString = true ∧
      ((documented config).stubAll [.module] none
        ([] ++ documentedVariable :: .expr ⟨2, 0, 2, 4⟩ documentingString :: [])).outcome
        = .ok nodes ∧
      (documented config).Strings [documentedVariable, .expr ⟨2, 0, 2, 4⟩ documentingString]
      [] nodes ∧ nodes = before ++ (own ++ (doc ++ after)) ∧
      (own ≠ [] → ∃ n ∈ own, n.isSpacer = false) ∧
      (documented config).DocOf [.module] ((Node.lastTags own).or ((Node.lastTags before).or none))
        ⟨2, 0, 2, 4⟩ doc := by
  have hsample : Stub.keepPublic.validate.toOption.any (fun config =>
      ((documented config).stubAll [.module] none [documentedVariable,
        .expr ⟨2, 0, 2, 4⟩ documentingString]).outcome.toOption.any fun _ => true) = true := by
    decide +kernel
  obtain ⟨config, hconfig, hsample⟩ := any_toOption_iff.1 hsample
  obtain ⟨nodes, hnodes, -⟩ := any_toOption_iff.1 hsample
  have ⟨hstrings, hblock⟩ := docstring_behind hnodes
  obtain ⟨before, own, doc, after, hsplit, -, -, hown, hdoc⟩ := @hblock [] _ _ _ _ rfl rfl
  exact ⟨config, nodes, before, own, doc, after, hconfig, rfl, hnodes, hstrings,
    hsplit, hown, hdoc⟩

def pruned : String := "_y = 2\n'''about y'''\nx = 1\n"

/-- A string behind a variable that is left out stays, as that of the module. -/
theorem docstring_of_pruned : ∃ config, Stub.keepPublic.validate = .ok config ∧
    (Stub.generate config false Stub.samplePath pruned.toList).outcome
      = .ok "'''about y'''\nx = 1\n" := by
  have hkept : Stub.keepPublic.validate.toOption.any (fun config =>
      decide ((Stub.generate config false Stub.samplePath pruned.toList).outcome
        = .ok "'''about y'''\nx = 1\n")) = true := by decide +kernel
  simpa only [any_toOption_iff, decide_eq_true_eq] using hkept

end Session

end TypeStub
