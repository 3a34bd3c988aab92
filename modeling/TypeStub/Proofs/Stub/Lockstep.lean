import TypeStub.Proofs.Stub.Definitions
import TypeStub.Proofs.Stub.Noninterference
/-!
# Two sessions in lockstep

Two sessions over one source, whose configurations differ at most in which definitions they keep and
which imports, go through a module side by side: they take the same branches of `if` statements and
write the same headers. What differs is which definitions are there, which imports, and so which
documentation strings and which marks for empty bodies. A relation that allows for this and is kept
when nodes are put together (`Allows`) holds between the two stubs (`stubAll_relates`).

Main statement: a configuration that keeps more definitions loses none (`definitions_sublist`).
-/

namespace TypeStub

open TypeStub.Syntax StubM

namespace Node

/-- A relation between nodes that come from the same statements. It does not look at the nodes
aside, and it is kept when nodes are put together. -/
structure Coherent (R : List Node → List Node → Prop) : Prop where
  refl (nodes : List Node) : R nodes nodes
  aside {nodes nodes' : List Node} : AreAside nodes → AreAside nodes' → R nodes nodes'
  append {ns ns' ms ms' : List Node} : R ns ns' → R ms ms' → R (ns ++ ms) (ns' ++ ms')
  inside {tags : List Tag} {lines : List String} {children children' : List Node} :
    R children children' → R [{ tags, lines, children }] [{ tags, lines, children := children' }]

end Node

namespace Session

def varied (s : Session) (keep : Filter) (used : Option (List String)) : Session :=
  { s with config := { s.config with keepDefinitions := keep }, used }

variable {s : Session} {keep : Filter} {used : Option (List String)} {parentTags : List Tag}
  {last last' : Option (List Tag)} {nodes nodes' : List Node}

/-- A relation that holds between what two sessions make of the same statements: the second one
keeps what the first one keeps, and the relation allows for what only the second one keeps. -/
structure Allows (s : Session) (keep : Filter) (R : List Node → List Node → Prop) : Prop extends
    Node.Coherent R where
  keeps (ctx : Filter.Context) : s.config.keepDefinitions.Holds ctx → keep.Holds ctx
  gained {ctx : Filter.Context} {nodes : List Node} :
    s.config.keepDefinitions.isMatch ctx = .ok false → keep.isMatch ctx = .ok true → R [] nodes

section

variable {R : List Node → List Node → Prop} (hR : s.Allows keep R)

include hR

theorem pruned_relates {ctx x x' what} [Steady x] [Steady x'] (hx : Relates R x x') : Relates R
      (do
        if ← isMatch s.config.keepDefinitions ctx then x
        else
          s.sayPruned what
          return [])
      (do
        if ← isMatch keep ctx then x'
        else
          (s.varied keep used).sayPruned what
          return []) := by
  intro nodes nodes' h h'
  obtain ⟨hmatch, h⟩ | ⟨hmatch, h⟩ := isMatch_ite_ok.1 h
  · obtain ⟨_, h'⟩ | ⟨hmatch', _⟩ := isMatch_ite_ok.1 h'
    · exact hx h h'
    · exact nomatch (hR.keeps _ hmatch).symm.trans hmatch'
  · obtain rfl := (remark_ok (sayPruned_outcome ..)).1 h
    obtain ⟨hmatch', _⟩ | ⟨_, h'⟩ := isMatch_ite_ok.1 h'
    · exact hR.gained hmatch hmatch'
    · obtain rfl := (remark_ok (sayPruned_outcome ..)).1 h'
      exact hR.refl []

theorem stubAssign_relates {targets simple annot value} :
    Relates R (s.stubAssign parentTags targets simple annot value)
      ((s.varied keep used).stubAssign parentTags targets simple annot value) := by
  unfold stubAssign
  refine .seq .rfl fun text => ?_
  split
  · exact .refl hR.refl
  -- all that is found out before the filter is asked is the same
  · exact .seq .rfl fun _ => .seq .rfl fun _ => .seq .rfl fun _ => .seq .rfl fun _ =>
      .seq .rfl fun _ => pruned_relates hR (.refl hR.refl)

theorem stubFunction_relates {head body} : Relates R (s.stubFunction parentTags head body)
      ((s.varied keep used).stubFunction parentTags head body) :=
  pruned_relates hR (.refl hR.refl)

theorem withEllipsis_relates {tags name inner inner'} (hinner : R inner inner') :
    Relates R (s.withEllipsis parentTags tags name inner)
      ((s.varied keep used).withEllipsis parentTags tags name inner') := by
  intro nodes nodes' h h'
  obtain ⟨mark, hmark, rfl⟩ := withEllipsis_append h
  obtain ⟨mark', hmark', rfl⟩ := withEllipsis_append h'
  exact hR.append hinner (hR.aside hmark hmark')

theorem branchNode_relates {line inner inner'} (hinner : R inner inner') :
    Relates (fun n n' => R [n] [n']) (s.branchNode parentTags line inner)
      ((s.varied keep used).branchNode parentTags line inner') :=
  .bind (withEllipsis_relates hR hinner) fun _ _ hchildren => .pure (hR.inside hchildren)

theorem ifNodes_relates {condition outer outer' inner inner' others others'} [Steady inner]
    [Steady inner'] [Steady others] [Steady others'] (houter : R outer outer')
    (hinner : Relates R inner inner') (hothers : Relates R others others') :
    Relates R (s.ifNodes parentTags condition outer inner others)
      ((s.varied keep used).ifNodes parentTags condition outer' inner' others') := by
  refine .seq .rfl fun kept => ?_
  split
  · refine .seq .rfl fun line => hinner.bind fun _ _ hchildren =>
      (branchNode_relates hR hchildren).bind fun _ _ hfirst => hothers.bind fun _ _ hmore => ?_
    exact .pure (hR.append houter (hR.append hfirst hmore))
  · exact .pure houter

/-! ## All statements -/

mutual

theorem stub_relates (parentTags : List Tag) (last last' : Option (List Tag)) : (stmt : Stmt) →
      Relates R (s.stub parentTags last stmt) ((s.varied keep used).stub parentTags last' stmt)
  | .imports .. | .importFrom .. => by
    rw [stub, stub]
    exact fun _ _ h h' => hR.aside (stubImport_aside h) (stubImport_aside h')
  | .assign .. => by
    rw [stub, stub]
    exact .seq .rfl fun _ => stubAssign_relates hR
  | .annAssign .. => by
    rw [stub, stub]
    exact stubAssign_relates hR
  | .functionDef .. => by
    rw [stub, stub]
    exact stubFunction_relates hR
  | .classDef _ _ body => by
    rw [stub, stub]
    refine pruned_relates hR (.seq .rfl fun _ => .seq .rfl fun _ =>
      (stubAll_relates _ _ _ body).bind fun _ _ hinner =>
      (withEllipsis_relates hR hinner).bind fun _ _ hchildren => ?_)
    exact .pure (hR.append (hR.inside hchildren) (hR.refl [Node.spacer]))
  | .expr _ value => by
    rw [stub, stub]
    split
    · exact fun _ _ h h' => hR.aside (stubString_ok h).aside (stubString_ok h').aside
    · exact .seq .rfl fun _ => .refl hR.refl
  | .ifElse _ _ body orelse => by
    rw [stub, stub]
    refine .seq .rfl fun condition => .seq .rfl fun flatten => ?_
    dsimp only
    split
    · exact (stubAll_relates _ _ _ body).bind fun _ _ houter =>
        ifNodes_relates hR houter (.refl hR.refl) (stubElse_relates _ orelse)
    · exact ifNodes_relates hR (hR.refl []) (stubAll_relates _ _ _ body)
        (stubElse_relates _ orelse)
  | .tryBlock _ _ body .. => by
    rw [stub, stub]
    exact stubAll_relates _ _ _ body
  | .withBlock _ _ _ body _ => by
    rw [stub, stub]
    split
    · exact .seq .rfl fun _ => .refl hR.refl
    · exact stubAll_relates _ _ _ body
  | .ret .. | .delete .. | .augAssign .. | .forLoop .. | .whileLoop .. | .matchCases .. | .raise ..
  | .assert .. | .global .. | .nonlocal .. | .pass _ | .break _ | .continue _ => by
    intro nodes nodes' h h'
    rw [(stub_grows _ _ _ h).eq_nil_of_skipped rfl, (stub_grows _ _ _ h').eq_nil_of_skipped rfl]
    exact hR.refl []
termination_by stmt => sizeOf stmt

theorem stubAll_relates (parentTags : List Tag) (last last' : Option (List Tag)) :
    (stmts : List Stmt) →
      Relates R (s.stubAll parentTags last stmts)
        ((s.varied keep used).stubAll parentTags last' stmts)
  | [] => by
    rw [stubAll, stubAll]
    exact .refl hR.refl
  | stmt :: rest => by
    rw [stubAll, stubAll]
    exact (stub_relates _ _ _ stmt).bind fun _ _ hnodes =>
      (stubAll_relates _ _ _ rest).bind fun _ _ hmore => .pure (hR.append hnodes hmore)
termination_by stmts => sizeOf stmts

theorem stubElse_relates (parentTags : List Tag) : (stmts : List Stmt) →
      Relates R (s.stubElse parentTags stmts) ((s.varied keep used).stubElse parentTags stmts)
  | [] => by
    rw [stubElse, stubElse]
    exact .refl hR.refl
  | stmt :: rest => by
    rw [stubElse.eq_def s, stubElse.eq_def (s.varied keep used)]
    split
    · exact .refl hR.refl
    · next body orelse heq =>
      cases heq
      exact .seq .rfl fun _ => .seq .rfl fun _ =>
        (stubAll_relates _ _ _ body).bind fun _ _ hinner =>
        (branchNode_relates hR hinner).bind fun _ _ hbranch =>
        (stubElse_relates _ orelse).bind fun _ _ hmore => .pure (hR.append hbranch hmore)
    · next heq =>
      cases heq
      exact (stub_relates _ _ _ stmt).bind fun _ _ hnodes =>
        (stubAll_relates _ _ _ rest).bind fun _ _ hmore =>
        (branchNode_relates hR (hR.append hnodes hmore)).bind fun _ _ hbranch => .pure hbranch
termination_by stmts => sizeOf stmts

end

end

end Session

/-! ## Keeping more definitions -/

namespace Node

def headings (nodes : List Node) : List (List Tag × List String) :=
  (definitions nodes).map fun n => (n.tags, n.lines)

theorem headings_append (ns ms : List Node) : headings (ns ++ ms) = headings ns ++ headings ms := by
  rw [headings, definitions_append, List.map_append, headings, headings]

theorem coherent_headings : Coherent fun ns ns' => (headings ns).Sublist (headings ns') where
  refl nodes := .refl _
  aside h h' := by rw [headings, headings, definitions_aside h, definitions_aside h']
  append h h' := by
    rw [headings_append, headings_append]
    exact h.append h'
  inside {tags lines children children'} h := by
    have hnode : ∀ children, headings [{ tags, lines, children }]
        = headings [{ tags, lines, children := [] }] ++ headings children := by
      intro children
      simp only [headings, definitions_cons, definitions_nil, List.append_nil, List.map_append]
      congr 1
      split <;> simp_all [isDefinition]
    rw [hnode children, hnode children']
    exact (List.Sublist.refl _).append h

end Node

namespace Session

/-- **Keeping more definitions loses none.** If the filter for definitions is replaced by one that
matches wherever it does, then the classes, functions and variables that were shown are shown still,
in the same order and with the same lines. -/
theorem definitions_sublist {source : Source} {config : ValidConfig} {keep : Filter} {debug : Bool}
    {used : Option (List String)} {m : Module} {root root' : Node}
    (himplies : ∀ ctx, config.keepDefinitions.Holds ctx → keep.Holds ctx)
    (h : (stubModule ⟨source, config, debug, used⟩ m).outcome = .ok root)
    (h' : (stubModule ⟨source, { config with keepDefinitions := keep }, debug, used⟩ m).outcome
      = .ok root') :
    ((root.preorder.filter Node.isDefinition).map fun n => (n.tags, n.lines)).Sublist
      ((root'.preorder.filter Node.isDefinition).map fun n => (n.tags, n.lines)) := by
  obtain ⟨children, hchildren, rfl⟩ := stubModule_ok h
  obtain ⟨children', hchildren', rfl⟩ := stubModule_ok h'
  rw [Node.preorder_eq, Node.preorder_eq]
  have hallows : Allows ⟨source, config, debug, used⟩ keep
      fun ns ns' => (Node.headings ns).Sublist (Node.headings ns') :=
    { Node.coherent_headings with keeps := himplies, gained := fun _ _ => List.nil_sublist _ }
  exact @stubAll_relates _ _ used _ hallows _ _ _ m.body _ _ hchildren hchildren'

/-! A sample with a class that one of two configurations keeps. -/

def classSample : String := "class A:\n x: int\n 'd'\nif c:\n y = 2\n"

def keepFew : Config :=
  { keepDefinitionsConfig with keepDefinitions := some (.expr "not name_is('A')") }

def fewAndAll? : Option (ValidConfig × Filter × Module × Node × Node) := do
  let config ← keepFew.validate.toOption
  let keep ← (Filter.read (.flag true)).toOption
  let m ← (Stub.sampleSource classSample).readModule.toOption
  let s : Session := ⟨Stub.sampleSource classSample, config, false, none⟩
  let root ← (s.stubModule m).outcome.toOption
  let root' ← ((s.varied keep none).stubModule m).outcome.toOption
  return (config, keep, m, root, root')

theorem definitions_sublist_on_sample :
    ∃ config keep m root root', keepFew.validate = .ok config ∧
      (∀ ctx, config.keepDefinitions.Holds ctx → keep.Holds ctx) ∧
      (Stub.sampleSource classSample).readModule = .ok m ∧
      (stubModule ⟨Stub.sampleSource classSample, config, false, none⟩ m).outcome = .ok root ∧
      (stubModule ⟨Stub.sampleSource classSample, { config with keepDefinitions := keep }, false,
        none⟩ m).outcome = .ok root' ∧
      (root.preorder.filter Node.isDefinition).length = 1 ∧
      (root'.preorder.filter Node.isDefinition).length = 3 ∧
      ((root.preorder.filter Node.isDefinition).map fun n => (n.tags, n.lines)).Sublist
        ((root'.preorder.filter Node.isDefinition).map fun n => (n.tags, n.lines)) := by
  have hsample : fewAndAll?.map (fun (_, keep, _, root, root') => (keep.isAlways,
      (root.preorder.filter Node.isDefinition).length,
      (root'.preorder.filter Node.isDefinition).length)) = some (true, 1, 3) := by
    decide +kernel
  obtain ⟨⟨config, keep, m, root, root'⟩, hstubs, hvalues⟩ :=
    Option.map_eq_some_iff.1 hsample
  simp only [Prod.mk.injEq] at hvalues
  obtain ⟨halways, hfew, hall⟩ := hvalues
  simp only [fewAndAll?, Option.bind_eq_bind, Option.bind_eq_some_iff,
    toOption_eq_some_iff] at hstubs
  obtain ⟨_, hconfig, _, _, _, hm, _, hroot, _, hroot', ⟨⟩⟩ := hstubs
  have hkeep := Filter.holds_of_isAlways halways
  exact ⟨config, keep, m, root, root', hconfig, fun ctx _ =>
    hkeep ctx, hm, hroot, hroot', hfew, hall,
    definitions_sublist (fun ctx _ => hkeep ctx) hroot hroot'⟩

end Session

end TypeStub
