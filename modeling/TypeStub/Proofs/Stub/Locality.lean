import TypeStub.Proofs.Stub.Outcome
/-!
# Stubbing in place

Stubbing can also be read as a walk that carries a node along and puts what it finds into it. The
bodies of `try` and `with` statements, and those of flattened `if` statements, go into the node that
is carried; a class or a branch starts a node of its own. `Session.grow` is that walk. It sees the
whole node at each step, and still it comes to what `Session.stub` returns, put behind the nodes
that were there:

* `grow_eq`, `growAll_eq`, `growElse_eq`: the walk and the nodes that stubbing returns;
* `growing_appends`: a walk leaves alone what it finds, and what it adds depends on two lists of
  tags alone, so that the stubs of two blocks stand one behind the other.
-/

namespace TypeStub

open TypeStub.Syntax

namespace Node

variable {n : Node} {a b : List Node}

def add (n : Node) (more : List Node) : Node :=
  { n with children := n.children ++ more }

@[simp] theorem add_nil : n.add [] = n := by
  cases n
  simp only [add, List.append_nil]

theorem add_add : (n.add a).add = fun more => n.add (a ++ more) := by
  funext more
  simp only [add, List.append_assoc]

@[simp] theorem tags_add : (n.add a).tags = n.tags := rfl

theorem lastTags_append : lastTags (a ++ b) = (lastTags b).or (lastTags a) := by
  rw [lastTags, lastTags, List.getLast?_append, Option.map_or]
  rfl

@[simp] theorem lastTags_nil : lastTags [] = none := rfl

@[simp] theorem lastTags_add :
    lastTags (n.add a).children = (lastTags a).or (lastTags n.children) :=
  lastTags_append

/-- Two nodes that a walk cannot tell apart: they have the same tags, and so have the last nodes
inside them. -/
def Alike (m n : Node) : Prop :=
  m.tags = n.tags ∧ lastTags m.children = lastTags n.children

end Node

namespace Session

/-! ## The walk -/

/-- A node whose body is complete, with a mark added where one is due. -/
def closed (s : Session) (parent this : Node) (name : Option String) : StubM Node := do
  let children ← s.withEllipsis parent.tags this.tags name this.children
  return { this with children }

/-- A branch of an `if` statement before anything is put into it. -/
def emptyBranch (line : String) : Node :=
  { tags := [.if], lines := [line], children := [] }

/-- Puts an `if` statement into a node, with what the two steps make of its branches. -/
def growIf (s : Session) (parent : Node) (condition : String) (branch : Node → StubM Node)
    (others : Node → StubM Node) : StubM Node := do
  if ← isMatch s.config.keepIfStatements (s.context parent.tags [.if]) then
    let line ← StubM.oneLine ("if " ++ condition ++ ":")
    let this ← branch (emptyBranch line)
    let this ← s.closed parent this none
    others (parent.add [this])
  else return parent

mutual

def grow (s : Session) (parent : Node) : Stmt → StubM Node
  | .imports span names =>
    parent.add <$> s.stubImport parent.tags names fun kept => .imports span kept
  | .importFrom span module names level =>
    parent.add <$> s.stubImport parent.tags names fun kept => .importFrom span module kept level
  | .assign _ targets value typeComment => do
    Source.sayTypeComment typeComment "variable"
    parent.add <$> s.stubAssign parent.tags targets true none (some value)
  | .annAssign _ target annot value simple =>
    parent.add <$> s.stubAssign parent.tags [target] simple (some annot) value
  | .classDef _ head body => do
    if ← isMatch s.config.keepDefinitions
        (s.definitionContext parent.tags .classDef head.name) then
      let decorators ← decoratorLines head.decorators
      let line ← classLine head
      let this : Node := { tags := [.classDef], lines := decorators ++ [line], children := [] }
      let this ← s.growAll this body
      let this ← s.closed parent this (some head.name)
      return (parent.add [this]).add [Node.spacer]
    else
      s.sayPruned ("class " ++ head.name)
      return parent
  | .functionDef _ head body => parent.add <$> s.stubFunction parent.tags head body
  | .expr span value => do
    if value.isString then
      parent.add <$> s.stubString parent.tags (Node.lastTags parent.children) span
    else
      s.stubOther (.expr span value)
      return parent
  | .ifElse _ test body orelse => do
    let condition ← StubM.exprLine test
    let flatten ← isMatch s.config.flattenIf (s.conditionContext parent.tags condition)
    if flatten then
      let parent ← s.growAll parent body
      s.growIf parent condition pure fun n => s.growElse n orelse
    else s.growIf parent condition (fun n => s.growAll n body) fun n => s.growElse n orelse
  | .tryBlock _ _ body _ _ _ => s.growAll parent body
  | .withBlock span isAsync items body typeComment => do
    if isAsync then
      s.stubOther (.withBlock span isAsync items body typeComment)
      return parent
    else s.growAll parent body
  | stmt => do
    s.stubOther stmt
    return parent

def growAll (s : Session) (parent : Node) : List Stmt → StubM Node
  | [] => return parent
  | stmt :: rest => do
    let parent ← s.grow parent stmt
    s.growAll parent rest

/-- Puts the further branches of an `if` statement into a node. -/
def growElse (s : Session) (parent : Node) : List Stmt → StubM Node
  | [] => return parent
  | [.ifElse _ test body orelse] => do
    let condition ← StubM.exprLine test
    let line ← StubM.oneLine ("elif " ++ condition ++ ":")
    let this ← s.growAll (emptyBranch line) body
    let this ← s.closed parent this none
    s.growElse (parent.add [this]) orelse
  | stmt :: rest => do
    let this ← s.grow (emptyBranch "else:") stmt
    let this ← s.growAll this rest
    let this ← s.closed parent this none
    return parent.add [this]

end

/-- A complete node whose nodes were put into a fresh one. -/
theorem closed_add (s : Session) (parent : Node) (tags : List Tag) (lines : List String)
    (inner : List Node) (name : Option String) :
    s.closed parent (Node.add { tags, lines, children := [] } inner) name = (do
      let children ← s.withEllipsis parent.tags tags name inner
      return { tags, lines, children }) := rfl

theorem closed_branch (s : Session) (parent : Node) (line : String) (inner : List Node) :
    s.closed parent ((emptyBranch line).add inner) none
      = s.branchNode parent.tags line inner := rfl

theorem ite_bind {α β : Type} (b : Bool) (x y : StubM α) (f : α → StubM β) :
    (if b then x else y) >>= f = if b then x >>= f else y >>= f := by
  cases b <;> rfl

/-- An `if` statement that is put behind what its body leaves. -/
theorem growIf_eq (s : Session) (parent : Node) (condition : String) (outer : List Node)
    (branch : Node → StubM Node) {others : Node → StubM Node} {inner more : StubM (List Node)}
    (hbranch : ∀ line, branch (emptyBranch line) = (emptyBranch line).add <$> inner)
    (hothers : ∀ n : Node, n.tags = parent.tags → others n = n.add <$> more) :
    s.growIf (parent.add outer) condition branch others
      = parent.add <$> s.ifNodes parent.tags condition outer inner more := by
  have hmore : ∀ this, others (parent.add (outer ++ [this]))
      = (parent.add (outer ++ [this])).add <$> more := fun _ => hothers _ rfl
  simp only [growIf, ifNodes, hbranch, hmore, closed_branch, Node.tags_add, Node.add_add,
    map_eq_pure_bind, bind_assoc, pure_bind, ite_bind, List.append_assoc, List.singleton_append]

/-! ## The nodes that it adds -/

mutual

/-- A walk over a statement comes to the nodes that stubbing returns. -/
theorem grow_eq (s : Session) (parent : Node) (stmt : Stmt) :
    s.grow parent stmt
      = parent.add <$> s.stub parent.tags (Node.lastTags parent.children) stmt := by
  cases stmt with
  | classDef _ head body =>
    simp only [grow, stub, growAll_eq s _ body, closed_add, map_eq_pure_bind, bind_assoc, pure_bind,
      ite_bind, Node.add_add, Node.add_nil]
    rfl
  | ifElse _ test body orelse =>
    simp only [grow, stub, map_eq_pure_bind, bind_assoc]
    refine bind_congr fun condition => bind_congr fun flatten => ?_
    have hothers (n : Node) (hn : n.tags = parent.tags) :
        s.growElse n orelse = n.add <$> s.stubElse parent.tags orelse := by
      rw [growElse_eq s n orelse, hn]
    cases flatten with
    | true =>
      simp only [if_true, growAll_eq s parent body, map_eq_pure_bind, bind_assoc, pure_bind]
      refine bind_congr fun outer => ?_
      have hbranch (line : String) : pure (emptyBranch line)
          = (emptyBranch line).add <$> (pure [] : StubM (List Node)) := by
        rw [map_pure, Node.add_nil]
      rw [growIf_eq s parent condition outer pure hbranch hothers, map_eq_pure_bind]
    | false =>
      have hbranch (line : String) : s.growAll (emptyBranch line) body
          = (emptyBranch line).add <$> s.stubAll [.if] none body :=
        growAll_eq s (emptyBranch line) body
      have h := growIf_eq s parent condition [] (s.growAll · body) hbranch hothers
      rw [Node.add_nil, map_eq_pure_bind] at h
      exact h
  | tryBlock _ _ body => rw [grow, stub, growAll_eq]
  | withBlock span isAsync items body typeComment =>
    rw [grow, stub]
    cases isAsync with
    | true => simp
    | false => exact growAll_eq s parent body
  | expr span value =>
    rw [grow, stub]
    cases value.isString <;> simp
  | _ => simp [grow, stub]

/-- A walk over several statements adds what stubbing returns for them. -/
theorem growAll_eq (s : Session) (parent : Node) (stmts : List Stmt) :
    s.growAll parent stmts
      = parent.add <$> s.stubAll parent.tags (Node.lastTags parent.children) stmts := by
  cases stmts with
  | nil => simp [growAll, stubAll]
  | cons stmt rest =>
    simp only [growAll, stubAll, grow_eq s parent stmt, growAll_eq s _ rest, map_eq_pure_bind,
      bind_assoc, pure_bind, Node.tags_add, Node.lastTags_add, Node.add_add]

/-- A walk over further branches adds what stubbing returns for them. -/
theorem growElse_eq (s : Session) (parent : Node) (stmts : List Stmt) :
    s.growElse parent stmts = parent.add <$> s.stubElse parent.tags stmts := by
  fun_cases stubElse s parent.tags stmts with
  | case1 => simp [growElse]
  | case2 _ test body orelse =>
    simp only [growElse, growAll_eq s _ body, growElse_eq s _ orelse, closed_branch,
      map_eq_pure_bind, bind_assoc, pure_bind, Node.tags_add, Node.add_add, List.singleton_append]
    rfl
  | case3 stmt rest hnot =>
    rw [growElse.eq_3 _ _ _ _ hnot]
    simp only [grow_eq s _ stmt, growAll_eq s _ rest, map_eq_pure_bind, bind_assoc, pure_bind,
      Node.tags_add, Node.lastTags_add, Node.add_add, closed_branch]
    simp only [emptyBranch, Node.lastTags_nil, Option.or_none]

end

/-- A module is stubbed by a walk that starts with an empty node. -/
theorem stubModule_eq (s : Session) (m : Module) :
    s.stubModule m = (do
      if m.typeIgnores > 0 then StubM.sayUnexpected "Type comment on module"
      s.growAll { tags := [.module], lines := [], children := [] } m.body) := by
  simp only [stubModule, growAll_eq, map_eq_pure_bind]
  rfl

/-- A walk over two blocks is a walk over the second from where the first leads. -/
theorem growAll_append (s : Session) (parent : Node) (first second : List Stmt) :
    s.growAll parent (first ++ second)
      = s.growAll parent first >>= fun n => s.growAll n second := by
  induction first generalizing parent with
  | nil => rw [List.nil_append, growAll, pure_bind]
  | cons stmt rest ih => simp only [List.cons_append, growAll, ih, bind_assoc]

/-- A step that fills a node returns if the step that makes the new nodes does. -/
theorem run_add_eq_ok {n grown : Node} {x : StubM (List Node)} {log rest : Log} :
    (n.add <$> x).run.run log = (.ok grown, rest)
      ↔ ∃ new, x.run.run log = (.ok new, rest) ∧ grown = n.add new := by
  rw [map_eq_pure_bind, run_run_bind]
  rcases x.run.run log with ⟨cause | new, more⟩
  · constructor
    · intro h
      cases h
    · rintro ⟨_, h, _⟩
      cases h
  · constructor
    · intro h
      cases h
      exact ⟨new, rfl, rfl⟩
    · rintro ⟨_, h, rfl⟩
      cases h
      rfl

/-- Whenever a step that fills a node returns, it has put new nodes behind those inside, and it
puts the same ones into every node that is alike. -/
def Appends (fill : Node → StubM Node) : Prop :=
  ∀ parent log grown rest, (fill parent).run.run log = (.ok grown, rest) →
    ∃ new, grown = { parent with children := parent.children ++ new } ∧
      ∀ n : Node, n.Alike parent → (fill n).run.run log = (.ok (n.add new), rest)

theorem Appends.of_eq {fill : Node → StubM Node}
    (nodes : List Tag → Option (List Tag) → StubM (List Node))
    (h : ∀ n, fill n = n.add <$> nodes n.tags (Node.lastTags n.children)) : Appends fill := by
  intro parent log grown rest hrun
  rw [h, run_add_eq_ok] at hrun
  obtain ⟨new, hnew, rfl⟩ := hrun
  refine ⟨new, rfl, fun n hn => ?_⟩
  rw [h, hn.1, hn.2, run_add_eq_ok]
  exact ⟨new, hnew, rfl⟩

theorem grow_appends (s : Session) (stmt : Stmt) : Appends (s.grow · stmt) :=
  .of_eq (s.stub · · stmt) fun n => grow_eq s n stmt

theorem growAll_appends (s : Session) (stmts : List Stmt) : Appends (s.growAll · stmts) :=
  .of_eq (s.stubAll · · stmts) fun n => growAll_eq s n stmts

/-- Stubbing in place leaves alone what it finds. The nodes that a statement adds depend on the
tags of the node they are put into and on those of the last node inside it, and the nodes of two
blocks are those of the first with those behind them that the second leaves in any node which looks
as the first has left it. -/
theorem growing_appends (s : Session) :
    (∀ parent stmt, s.grow parent stmt
      = parent.add <$> s.stub parent.tags (Node.lastTags parent.children) stmt) ∧
    (∀ stmt, Appends (s.grow · stmt)) ∧
    (∀ first second parent log grown rest,
      (s.growAll parent (first ++ second)).run.run log = (.ok grown, rest) ↔
        ∃ new more middle, (s.growAll parent first).run.run log
          = (.ok (parent.add new), middle) ∧ (∀ n : Node, n.Alike (parent.add new) →
            (s.growAll n second).run.run middle = (.ok (n.add more), rest)) ∧
          grown = { parent with children := parent.children ++ new ++ more }) ∧
    ∀ m, s.stubModule m = (do
      if m.typeIgnores > 0 then StubM.sayUnexpected "Type comment on module"
      s.growAll { tags := [.module], lines := [], children := [] } m.body) := by
  refine ⟨grow_eq s, grow_appends s, fun first second parent log grown rest =>
    ?_, stubModule_eq s⟩
  rw [growAll_append, run_run_bind]
  constructor
  · intro h
    rcases hfirst : (s.growAll parent first).run.run log with ⟨cause | between, middle⟩
    · rw [hfirst] at h
      cases h
    · rw [hfirst] at h
      obtain ⟨new, rfl, -⟩ := growAll_appends s first parent log between middle hfirst
      obtain ⟨more, rfl, hmore⟩ := growAll_appends s second _ middle grown rest h
      exact ⟨new, more, middle, rfl, hmore, rfl⟩
  · rintro ⟨new, more, middle, hfirst, hsecond, rfl⟩
    rw [hfirst]
    exact hsecond _ ⟨rfl, rfl⟩

end Session

end TypeStub
