import TypeStub.Proofs.Filter.Meaning
/-!
# Which expressions are accepted as filters

`IsFormula` is the grammar of filters: truth values, questions about a subject, and what `not`,
`and` and `or` make of these. The check accepts exactly the expressions of the grammar
(`allowed_verdict`). It leaves the reasons alone if it accepts. If it rejects, the reasons end with
the classes of the expressions on the way from the first one that is rejected up to the whole
(`RejectedAlong`).
-/

namespace TypeStub.Filter

open TypeStub.Syntax

/-! ## The grammar -/

def functionNames : List String := Subject.all.map Subject.functionName

example : functionNames = ["parent_node_is", "node_is", "file_path_is", "name_is", "annotation_is",
    "value_is", "any_child_node_is"] := rfl

/-- An expression is a formula. A chain may have any number of operands; one that was read has at
least two. -/
inductive IsFormula : Expr → Prop
  | const {span value} : IsFormula (.constant span (.bool value))
  | asks {span inner outer id pattern} :
      id ∈ functionNames →
      IsFormula (.call span (.name inner id .load) [.constant outer (.str pattern false)] [])
  | not {span e} : IsFormula e → IsFormula (.unaryOp span .not e)
  | chain {span op es} :
      (∀ e ∈ es, IsFormula e) → IsFormula (.boolOp span op es)

/-- The expressions that a formula is made of by `not`, `and` or `or`. -/
def operands : Expr → List Expr
  | .unaryOp _ .not e => [e]
  | .boolOp _ _ es => es
  | _ => []

/-- The way from the first expression that is no formula, depth first and from left to right, up to
the whole. The first one has no operands, and all operands in front of the way are formulas. -/
inductive RejectedAlong : Expr → List Expr → Prop
  | here {e} : ¬ IsFormula e → operands e = [] → RejectedAlong e [e]
  | operand {e x front back way} :
      operands e = front ++ x :: back → (∀ y ∈ front, IsFormula y) → RejectedAlong x way →
      RejectedAlong e (way ++ [e])

variable {e x : Expr} {es front front' back back' way way' : List Expr}

theorem IsFormula.operand (h : IsFormula e) (hx : x ∈ operands e) : IsFormula x := by
  cases h with
  | const | asks => cases hx
  | not h => exact List.mem_singleton.1 hx ▸ h
  | chain h => exact h x hx

theorem RejectedAlong.not_isFormula (h : RejectedAlong e way) : ¬ IsFormula e := by
  induction h with
  | here h _ => exact h
  | operand hes _ _ ih => exact fun he => ih (he.operand (by simp [hes]))

/-- Two ways to divide a list at the first expression that is no formula are the same. -/
theorem split_unique {x'} (h : front ++ x :: back = front' ++ x' :: back')
    (hfront : ∀ y ∈ front, IsFormula y) (hx : ¬ IsFormula x)
    (hfront' : ∀ y ∈ front', IsFormula y) (hx' : ¬ IsFormula x') : x = x' := by
  induction front generalizing front' with
  | nil =>
    cases front' with
    | nil => exact (List.cons.inj h).1
    | cons y front' =>
      obtain ⟨rfl, -⟩ := List.cons.inj h
      exact absurd (hfront' x List.mem_cons_self) hx
  | cons y front ih =>
    cases front' with
    | nil =>
      obtain ⟨rfl, -⟩ := List.cons.inj h
      exact absurd (hfront y List.mem_cons_self) hx'
    | cons y' front' =>
      obtain ⟨-, h⟩ := List.cons.inj h
      exact ih h (List.forall_mem_cons.1 hfront).2 (List.forall_mem_cons.1 hfront').2

theorem RejectedAlong.unique (h : RejectedAlong e way) (h' : RejectedAlong e way') :
    way' = way := by
  induction h generalizing way' with
  | here _ hnone =>
    cases h' with
    | here => rfl
    | operand hes => simp [hnone] at hes
  | operand hes hfront hx ih =>
    cases h' with
    | here _ hnone => simp [hnone] at hes
    | operand hes' hfront' hx' =>
      obtain rfl := split_unique (hes.symm.trans hes') hfront hx.not_isFormula hfront'
        hx'.not_isFormula
      rw [ih hx']

/-! ## Formulas denote conditions -/

theorem forall_of_forall₂ {cs : List Condition}
    (h : List.Forall₂ (fun e _ => IsFormula e) es cs) : ∀ e ∈ es, IsFormula e :=
  ((List.forall₂_and_left es cs).1 (h.imp fun _ _ he => ⟨he, trivial⟩)).1

theorem mem_functionNames {id} :
    id ∈ functionNames ↔ (Subject.ofFunctionName? id).isSome = true := by
  simp [functionNames, Subject.ofFunctionName?]

theorem isSome_ofExprs?_iff :
    (Condition.ofExprs? es).isSome = true ↔ ∀ e ∈ es,
    (Condition.ofExpr? e).isSome = true := by
  induction es with
  | nil => simp [Condition.ofExprs?]
  | cons e rest ih =>
    rw [Condition.ofExprs?, List.forall_mem_cons, ← ih]
    cases Condition.ofExpr? e <;> cases Condition.ofExprs? rest <;> simp

theorem isSome_ofExpr?_iff : (Condition.ofExpr? e).isSome = true ↔ IsFormula e := by
  constructor
  · intro h
    obtain ⟨c, hc⟩ := Option.isSome_iff_exists.1 h
    have hclosed : Condition.Closed fun e _ => IsFormula e :=
      { const := .const
        asks := fun hsubject => .asks (mem_functionNames.2 (by simp [hsubject]))
        not := .not
        and := fun hes => .chain (forall_of_forall₂ hes)
        or := fun hes => .chain (forall_of_forall₂ hes) }
    exact hclosed.ofExpr? e hc
  · intro h
    induction h with
    | const => simp [Condition.ofExpr?]
    | asks hid =>
      rw [Condition.ofExpr?, Option.isSome_map]
      exact mem_functionNames.1 hid
    | not _ ih =>
      rw [Condition.ofExpr?, Option.isSome_map]
      exact ih
    | @chain _ op _ _ ih =>
      cases op <;>
      · rw [Condition.ofExpr?, Option.isSome_map]
        exact isSome_ofExprs?_iff.2 ih

namespace Check

/-! ## Checks of a single expression -/

/-- A check decides a question. If the answer is no, one reason replaces all others. -/
def Decides (check : Check) (P : Prop) : Prop :=
  ∀ prior, (P ∧ check.run prior = (true, prior)) ∨
    (¬ P ∧ ∃ reason, check.run prior = (false, [reason]))

theorem decides_fail {P : Prop} (h : ¬ P) (reason : String) : Decides (fail reason) P :=
  fun _ => .inr ⟨h, reason, rfl⟩

theorem decides_return {P : Prop} (h : P) : Decides (return true) P :=
  fun _ => .inl ⟨h, rfl⟩

theorem simpleConstant_bool (e : Expr) :
    Decides (simpleConstant .bool e) (∃ span value, e = .constant span (.bool value)) := by
  cases e with
  | constant span value =>
    cases value with
    | bool b => exact decides_return ⟨span, b, rfl⟩
    | _ => exact decides_fail (by simp) _
  | _ => exact decides_fail (by simp) _

theorem simpleConstant_text (e : Expr) :
    Decides (simpleConstant .text e) (∃ span pattern,
    e = .constant span (.str pattern false)) := by
  cases e with
  | constant span value =>
    cases value with
    | str pattern marked =>
      cases marked with
      | false => exact decides_return ⟨span, pattern, rfl⟩
      | true => exact decides_fail (by simp) _
    | _ => exact decides_fail (by simp) _
  | _ => exact decides_fail (by simp) _

/-- The function, the arguments and the keywords of a question. -/
def IsQuestion (func : Expr) (args : List Expr) (keywords : List (Keyword Expr)) : Prop :=
  ∃ inner id outer pattern, func = .name inner id .load ∧ id ∈ functionNames ∧
    args = [.constant outer (.str pattern false)] ∧ keywords = []

theorem isFormula_call_iff {span func args keywords} :
    IsFormula (.call span func args keywords) ↔ IsQuestion func args keywords := by
  constructor
  · intro h
    cases h with
    | asks hid => exact ⟨_, _, _, _, rfl, hid, rfl, rfl⟩
  · rintro ⟨_, _, _, _, rfl, hid, rfl, rfl⟩
    exact .asks hid

theorem Decides.orFail {check} {P : Prop} (h : Decides check P) (reason : String) :
    Decides (do if ← check then return true else fail reason) P := by
  intro prior
  obtain ⟨hP, hrun⟩ | ⟨hP, _, hrun⟩ := h prior
  · exact .inl ⟨hP, by rw [StateT.run_bind, hrun]; rfl⟩
  · exact .inr ⟨hP, reason, by rw [StateT.run_bind, hrun]; rfl⟩

theorem asking_known {inner id} (hid : id ∈ functionNames) (args : List Expr)
    (keywords : List (Keyword Expr)) : Decides (asking (.name inner id .load) args keywords)
      (IsQuestion (.name inner id .load) args keywords) := by
  have hknown : (Subject.ofFunctionName? id).isNone = false := by
    simpa using mem_functionNames.1 hid
  simp only [asking, loadedName, pure_bind, Bool.not_true, Bool.false_eq_true, if_false, hknown]
  split
  · next arg =>
    intro prior
    obtain ⟨⟨outer, pattern, rfl⟩, hrun⟩ | ⟨harg, hrun⟩ :=
      (simpleConstant_text arg).orFail _ prior
    · exact .inl ⟨⟨inner, id, outer, pattern, rfl, hid, rfl, rfl⟩, hrun⟩
    · refine .inr ⟨?_, hrun⟩
      rintro ⟨_, _, outer, pattern, _, _, heq, _⟩
      exact harg ⟨outer, pattern, (List.cons.inj heq).1⟩
  · next hnot =>
    refine decides_fail ?_ _
    rintro ⟨_, _, outer, pattern, _, _, rfl, rfl⟩
    exact hnot _ rfl rfl

theorem asking_decides (func : Expr) (args : List Expr) (keywords : List (Keyword Expr)) :
    Decides (asking func args keywords) (IsQuestion func args keywords) := by
  have hform (hfunc : ∀ inner id, func ≠ .name inner id .load) :
      ¬ IsQuestion func args keywords := by
    rintro ⟨inner, id, _, _, heq, _⟩
    exact hfunc inner id heq
  cases func with
  | name inner id use =>
    cases use with
    | load =>
      by_cases hid : id ∈ functionNames
      · exact asking_known hid args keywords
      · have hunknown : (Subject.ofFunctionName? id).isNone = true := by
          simpa [mem_functionNames] using hid
        simp only [asking, loadedName, pure_bind, Bool.not_true, Bool.false_eq_true, if_false,
          hunknown, if_true]
        refine decides_fail ?_ _
        rintro ⟨_, _, _, _, heq, hid', _⟩
        cases heq
        exact hid hid'
    | _ => exact fun _ => .inr ⟨hform (by simp), "unsupported function syntax", rfl⟩
  | _ => exact fun _ => .inr ⟨hform (by simp), "unsupported function syntax", rfl⟩

/-! ## The whole check -/

def rejection (e : Expr) : String := "unsupported type: ast." ++ e.className

theorem orReject_accepts {check : Check} {prior reasons : List String}
    (h : check.run prior = (true, reasons)) : (orReject e check).run prior = (true, reasons) := by
  rw [orReject, StateT.run_bind, h]
  rfl

theorem orReject_rejects {check : Check} {prior reasons : List String}
    (h : check.run prior = (false, reasons)) :
    (orReject e check).run prior = (false, reasons ++ [rejection e]) := by
  rw [orReject, StateT.run_bind, h]
  rfl

/-- What a check of an expression comes to: it accepts a formula, and otherwise goes the way of what
is rejected. What is in front of the rejections are the reasons so far, or one that replaces them.
-/
def Finds (check : Check) (e : Expr) : Prop :=
  ∀ prior, (IsFormula e ∧ check.run prior = (true, prior)) ∨
    ∃ way front, RejectedAlong e way ∧ (front = prior ∨ ∃ reason, front = [reason]) ∧
      check.run prior = (false, front ++ way.map rejection)

theorem finds_of_decides {check} (hcheck : Decides check (IsFormula e)) (hnone : operands e = []) :
    Finds (orReject e check) e := by
  intro prior
  obtain ⟨he, hrun⟩ | ⟨he, reason, hrun⟩ := hcheck prior
  · exact .inl ⟨he, orReject_accepts hrun⟩
  · exact .inr ⟨[e], [reason], .here he hnone, .inr ⟨reason, rfl⟩, orReject_rejects hrun⟩

theorem finds_of_not_isFormula (he : ¬ IsFormula e) (hnone : operands e = []) :
    Finds (orReject e (return false)) e :=
  fun prior => .inr ⟨[e], prior, .here he hnone, .inl rfl, orReject_rejects rfl⟩

/-- Several expressions are checked from left to right, up to the first one that is rejected. -/
def FindsAll (check : Check) (es : List Expr) : Prop :=
  ∀ prior, ((∀ e ∈ es, IsFormula e) ∧ check.run prior = (true, prior)) ∨
    ∃ before x after way front, es = before ++ x :: after ∧ (∀ y ∈ before, IsFormula y) ∧
      RejectedAlong x way ∧ (front = prior ∨ ∃ reason, front = [reason]) ∧
      check.run prior = (false, front ++ way.map rejection)

theorem finds_of_findsAll {check} (hcheck : FindsAll check (operands e))
    (he : IsFormula e ↔ ∀ x ∈ operands e, IsFormula x) : Finds (orReject e check) e := by
  intro prior
  obtain ⟨hall, hrun⟩ | ⟨before, x, after, way, front, hes, hbefore, hway, hfront, hrun⟩ :=
    hcheck prior
  · exact .inl ⟨he.2 hall, orReject_accepts hrun⟩
  · refine .inr ⟨way ++ [e], front, .operand hes hbefore hway, hfront, ?_⟩
    rw [orReject_rejects hrun, List.map_append, List.append_assoc]
    rfl

theorem findsAll_cons {first next} (hfirst : Finds first e) (hnext : FindsAll next es) :
    FindsAll (do if ← first then next else return false) (e :: es) := by
  intro prior
  obtain ⟨he, hrun⟩ | ⟨way, front, hway, hfront, hrun⟩ := hfirst prior
  · have hrun (result : Bool × List String) (h : next.run prior = result) :
        (do if ← first then next else return false : Check).run prior = result := by
      rw [StateT.run_bind, hrun]
      exact h
    obtain ⟨hall, hnext⟩ | ⟨before, x, after, way, front, rfl, hbefore, hway,
      hfront, hnext⟩ :=
      hnext prior
    · exact .inl ⟨List.forall_mem_cons.2 ⟨he, hall⟩, hrun _ hnext⟩
    · exact .inr ⟨e :: before, x, after, way, front, rfl,
        List.forall_mem_cons.2 ⟨he, hbefore⟩, hway, hfront, hrun _ hnext⟩
  · refine .inr ⟨[], e, es, way, front, rfl, nofun, hway, hfront, ?_⟩
    rw [StateT.run_bind, hrun]
    rfl

theorem findsAll_singleton {check} (hcheck : Finds check e) : FindsAll check [e] := by
  intro prior
  obtain ⟨he, hrun⟩ | ⟨way, front, hway, hfront, hrun⟩ := hcheck prior
  · exact .inl ⟨List.forall_mem_singleton.2 he, hrun⟩
  · exact .inr ⟨[], e, [], way, front, rfl, nofun, hway, hfront, hrun⟩

theorem isFormula_constant_iff {span value} : IsFormula (.constant span value) ↔
      ∃ span' b, Expr.constant span value = .constant span' (.bool b) := by
  constructor
  · rintro ⟨⟩
    exact ⟨_, _, rfl⟩
  · rintro ⟨_, _, heq⟩
    exact heq ▸ .const

mutual

/-- The check goes over an expression as the grammar does. -/
theorem allowed_finds : (e : Expr) → Finds (allowed e) e
  | .constant span value => by
    rw [allowed]
    refine finds_of_decides ?_ rfl
    rw [isFormula_constant_iff]
    exact simpleConstant_bool _
  | .call span func args keywords => by
    rw [allowed]
    refine finds_of_decides ?_ rfl
    rw [isFormula_call_iff]
    exact asking_decides func args keywords
  | .boolOp _ _ es => by
    rw [allowed]
    exact finds_of_findsAll (allAllowed_finds es) ⟨fun h _ hx => h.operand hx, .chain⟩
  | .unaryOp _ .not e => by
    rw [allowed]
    exact finds_of_findsAll (findsAll_singleton (allowed_finds e))
      ⟨fun h _ hx => h.operand hx, fun h => .not (h e List.mem_cons_self)⟩
  | .unaryOp _ .invert _ | .unaryOp _ .plus _ | .unaryOp _ .minus _ | .named .. | .binOp ..
  | .lambda .. | .ifExp .. | .dict .. | .set .. | .listComp .. | .setComp .. | .dictComp ..
  | .generator .. | .await .. | .yield .. | .yieldFrom .. | .compare .. | .formatted .. | .joined ..
  | .attribute .. | .subscript .. | .starred .. | .name .. | .list .. | .tuple .. | .slice .. => by
    simp only [allowed]
    exact finds_of_not_isFormula nofun rfl

theorem allAllowed_finds : (es : List Expr) → FindsAll (allAllowed es) es
  | [] => fun _ => .inl ⟨nofun, rfl⟩
  | e :: rest => by
    rw [allAllowed]
    exact findsAll_cons (allowed_finds e) (allAllowed_finds rest)

end

end Check

/-- **The check accepts exactly the grammar of filters**, whatever reasons there are already, and it
accepts what is read as a condition. If it accepts, the reasons stay as they are. If it rejects,
they end with one entry for each expression on the only way from the first one that is no formula up
to the whole. -/
theorem allowed_verdict (e : Expr) (prior : List String) :
    ∃ verdict reasons, (Check.allowed e).run prior = (verdict, reasons) ∧
      (verdict = true ↔ IsFormula e) ∧ (Condition.ofExpr? e).isSome = verdict ∧
      (verdict = true → reasons = prior) ∧
      (verdict = false → ∃ way front, (∀ way', RejectedAlong e way' ↔ way' = way) ∧
        (front = prior ∨ ∃ reason, front = [reason]) ∧
        reasons = front ++ way.map fun x => "unsupported type: ast." ++ x.className) := by
  obtain ⟨he, hrun⟩ | ⟨way, front, hway, hfront, hrun⟩ := Check.allowed_finds e prior
  · exact ⟨true, prior, hrun, iff_of_true rfl he, isSome_ofExpr?_iff.2 he, fun _ => rfl, nofun⟩
  · have he := hway.not_isFormula
    refine ⟨false, _, hrun, iff_of_false nofun he, ?_, nofun, fun _ => ?_⟩
    · rw [← Bool.not_eq_true, isSome_ofExpr?_iff]
      exact he
    · exact ⟨way, front, fun way' => ⟨hway.unique, fun h => h ▸ hway⟩, hfront, rfl⟩

end TypeStub.Filter
