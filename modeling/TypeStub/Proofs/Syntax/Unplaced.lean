import TypeStub.Syntax.Printer.Expression
/-!
# Expressions without positions

`Expr.unplaced` forgets where an expression and its parts were read from. Two expressions are the
same but for positions if they are equal without them, and then they have the same text
(`render_eq_of_unplaced`).
-/

namespace TypeStub.Syntax

def Span.nowhere : Span := ⟨0, 0, 0, 0⟩

mutual

def Expr.unplaced : Expr → Expr
  | .boolOp _ op values => .boolOp .nowhere op (unplacedAll values)
  | .named _ target value => .named .nowhere target.unplaced value.unplaced
  | .binOp _ left op right => .binOp .nowhere left.unplaced op right.unplaced
  | .unaryOp _ op operand => .unaryOp .nowhere op operand.unplaced
  | .lambda _ params body => .lambda .nowhere (unplacedParams params) body.unplaced
  | .ifExp _ test body orelse => .ifExp .nowhere test.unplaced body.unplaced orelse.unplaced
  | .dict _ entries => .dict .nowhere (unplacedEntries entries)
  | .set _ elts => .set .nowhere (unplacedAll elts)
  | .listComp _ elt clauses => .listComp .nowhere elt.unplaced (unplacedClauses clauses)
  | .setComp _ elt clauses => .setComp .nowhere elt.unplaced (unplacedClauses clauses)
  | .dictComp _ key value clauses =>
    .dictComp .nowhere key.unplaced value.unplaced (unplacedClauses clauses)
  | .generator _ elt clauses => .generator .nowhere elt.unplaced (unplacedClauses clauses)
  | .await _ value => .await .nowhere value.unplaced
  | .yield _ value => .yield .nowhere (unplacedOption value)
  | .yieldFrom _ value => .yieldFrom .nowhere value.unplaced
  | .compare _ left rest => .compare .nowhere left.unplaced (unplacedComparisons rest)
  | .call _ func args keywords =>
    .call .nowhere func.unplaced (unplacedAll args) (unplacedKeywords keywords)
  | .formatted _ value conversion spec =>
    .formatted .nowhere value.unplaced conversion (unplacedOption spec)
  | .joined _ parts => .joined .nowhere (unplacedAll parts)
  | .constant _ value => .constant .nowhere value
  | .attribute _ value attr => .attribute .nowhere value.unplaced attr
  | .subscript _ value index => .subscript .nowhere value.unplaced index.unplaced
  | .starred _ value => .starred .nowhere value.unplaced
  | .name _ id use => .name .nowhere id use
  | .list _ elts => .list .nowhere (unplacedAll elts)
  | .tuple _ elts => .tuple .nowhere (unplacedAll elts)
  | .slice _ lower upper step =>
    .slice .nowhere (unplacedOption lower) (unplacedOption upper) (unplacedOption step)

def unplacedAll : List Expr → List Expr
  | [] => []
  | e :: rest => e.unplaced :: unplacedAll rest

def unplacedOption : Option Expr → Option Expr
  | none => none
  | some e => some e.unplaced

def unplacedOptions : List (Option Expr) → List (Option Expr)
  | [] => []
  | e :: rest => unplacedOption e :: unplacedOptions rest

def unplacedEntry : Entry Expr → Entry Expr
  | { key, value } => { key := unplacedOption key, value := value.unplaced }

def unplacedEntries : List (Entry Expr) → List (Entry Expr)
  | [] => []
  | e :: rest => unplacedEntry e :: unplacedEntries rest

def unplacedClause : Clause Expr → Clause Expr
  | { target, iter, conditions, isAsync } =>
    { target := target.unplaced, iter := iter.unplaced, conditions := unplacedAll conditions,
      isAsync }

def unplacedClauses : List (Clause Expr) → List (Clause Expr)
  | [] => []
  | c :: rest => unplacedClause c :: unplacedClauses rest

def unplacedComparison : Comparison Expr → Comparison Expr
  | { op, right } => { op, right := right.unplaced }

def unplacedComparisons : List (Comparison Expr) → List (Comparison Expr)
  | [] => []
  | c :: rest => unplacedComparison c :: unplacedComparisons rest

def unplacedKeyword : Keyword Expr → Keyword Expr
  | { name, value } => { name, value := value.unplaced }

def unplacedKeywords : List (Keyword Expr) → List (Keyword Expr)
  | [] => []
  | k :: rest => unplacedKeyword k :: unplacedKeywords rest

def unplacedParam : Param Expr → Param Expr
  | { name, annot, typeComment } => { name, annot := unplacedOption annot, typeComment }

def unplacedParamList : List (Param Expr) → List (Param Expr)
  | [] => []
  | p :: rest => unplacedParam p :: unplacedParamList rest

def unplacedParamOption : Option (Param Expr) → Option (Param Expr)
  | none => none
  | some p => some (unplacedParam p)

def unplacedParams : Params Expr → Params Expr
  | { posOnly, args, vararg, kwOnly, kwDefaults, kwarg, defaults } =>
    { posOnly := unplacedParamList posOnly
      args := unplacedParamList args
      vararg := unplacedParamOption vararg
      kwOnly := unplacedParamList kwOnly
      kwDefaults := unplacedOptions kwDefaults
      kwarg := unplacedParamOption kwarg
      defaults := unplacedAll defaults }

end

theorem unplacedAll_eq_map (es : List Expr) : unplacedAll es = es.map Expr.unplaced := by
  induction es with
  | nil => rfl
  | cons e rest ih => rw [unplacedAll, ih, List.map_cons]

theorem unplacedKeywords_eq_map (ks : List (Keyword Expr)) :
    unplacedKeywords ks = ks.map unplacedKeyword := by
  induction ks with
  | nil => rfl
  | cons k rest ih => rw [unplacedKeywords, ih, List.map_cons]

theorem annot_unplacedParam (p : Param Expr) :
    (unplacedParam p).annot = p.annot.map Expr.unplaced := by
  obtain ⟨_, annot, _⟩ := p
  cases annot <;> rfl

theorem name_unplacedKeyword (k : Keyword Expr) : (unplacedKeyword k).name = k.name := by
  cases k
  rfl

theorem value_unplacedKeyword (k : Keyword Expr) :
    (unplacedKeyword k).value = k.value.unplaced := by
  cases k
  rfl

/-! ## Forms that printing asks for -/

theorem isIntLiteral_unplaced (e : Expr) : e.unplaced.isIntLiteral = e.isIntLiteral := by
  cases e with
  | constant _ value => cases value <;> rfl
  | _ => simp only [Expr.unplaced, Expr.isIntLiteral]

theorem indexLevel_unplaced (e : Expr) : e.unplaced.indexLevel = e.indexLevel := by
  cases e <;> simp only [Expr.unplaced, Expr.indexLevel]

theorem isTextLiteral_unplaced (e : Expr) : e.unplaced.isTextLiteral = e.isTextLiteral := by
  cases e with
  | constant _ value => cases value <;> rfl
  | _ => simp only [Expr.unplaced, Expr.isTextLiteral]

theorem isEmpty_unplacedAll (es : List Expr) : (unplacedAll es).isEmpty = es.isEmpty := by
  cases es <;> rfl

/-! ## Printing -/

mutual

/-- The text of an expression does not tell where it was read. -/
theorem print_unplaced (sparse : Bool) (level : Nat) :
    (e : Expr) → e.unplaced.print sparse level = e.print sparse level
  | .yield _ value => by
    cases value with
    | none => simp only [Expr.unplaced, unplacedOption, Expr.print]
    | some value => simp only [Expr.unplaced, unplacedOption, Expr.print, print_unplaced _ _ value]
  | .boolOp .. | .named .. | .binOp .. | .unaryOp .. | .lambda .. | .ifExp .. | .dict .. | .set ..
  | .listComp .. | .setComp .. | .dictComp .. | .generator .. | .await .. | .yieldFrom ..
  | .compare .. | .call .. | .formatted .. | .joined .. | .constant .. | .attribute ..
  | .subscript .. | .starred .. | .name .. | .list .. | .tuple .. | .slice .. => by
    simp only [Expr.unplaced, Expr.print, isEmpty_unplacedAll, isIntLiteral_unplaced,
      indexLevel_unplaced, print_unplaced, printAll_unplaced, printOperands_unplaced,
      printOption_unplaced, printEntries_unplaced, printClauses_unplaced,
      printComparisons_unplaced, printKeywords_unplaced, printParams_unplaced, printSpec_unplaced,
      printJoined_unplaced, printParts_unplaced]

theorem printAll_unplaced (sparse : Bool) :
    (es : List Expr) → printAll sparse (unplacedAll es) = printAll sparse es
  | [] => rfl
  | e :: rest => by
    rw [unplacedAll, printAll, printAll, print_unplaced _ _ e, printAll_unplaced _ rest]

theorem printOperands_unplaced (sparse : Bool) (level : Nat) :
    (es : List Expr) → printOperands sparse level (unplacedAll es) = printOperands sparse level es
  | [] => rfl
  | e :: rest => by
    rw [unplacedAll, printOperands, printOperands, print_unplaced _ _ e,
      printOperands_unplaced _ _ rest]

theorem printOption_unplaced (sparse : Bool) :
    (e : Option Expr) → printOption sparse (unplacedOption e) = printOption sparse e
  | none => rfl
  | some e => by
    rw [unplacedOption, printOption, printOption, print_unplaced _ _ e]

theorem printOptions_unplaced (sparse : Bool) :
    (es : List (Option Expr)) → printOptions sparse (unplacedOptions es) = printOptions sparse es
  | [] => rfl
  | e :: rest => by
    rw [unplacedOptions, printOptions, printOptions, printOption_unplaced _ e,
      printOptions_unplaced _ rest]

theorem printEntry_unplaced (sparse : Bool) :
    (e : Entry Expr) → printEntry sparse (unplacedEntry e) = printEntry sparse e
  | { key := none, value } => by
    rw [unplacedEntry, unplacedOption, printEntry, printEntry, print_unplaced _ _ value]
  | { key := some key, value } => by
    rw [unplacedEntry, unplacedOption, printEntry, printEntry, print_unplaced _ _ key,
      print_unplaced _ _ value]

theorem printEntries_unplaced (sparse : Bool) :
    (es : List (Entry Expr)) → printEntries sparse (unplacedEntries es) = printEntries sparse es
  | [] => rfl
  | e :: rest => by
    rw [unplacedEntries, printEntries, printEntries, printEntry_unplaced _ e,
      printEntries_unplaced _ rest]

theorem printConditions_unplaced (sparse : Bool) :
    (es : List Expr) → printConditions sparse (unplacedAll es) = printConditions sparse es
  | [] => rfl
  | e :: rest => by
    rw [unplacedAll, printConditions, printConditions, print_unplaced _ _ e,
      printConditions_unplaced _ rest]

theorem printClause_unplaced (sparse : Bool) :
    (c : Clause Expr) → printClause sparse (unplacedClause c) = printClause sparse c
  | { target, iter, conditions, isAsync } => by
    rw [unplacedClause, printClause, printClause, print_unplaced _ _ target,
      print_unplaced _ _ iter, printConditions_unplaced _ conditions]

theorem printClauses_unplaced (sparse : Bool) :
    (cs : List (Clause Expr)) → printClauses sparse (unplacedClauses cs) = printClauses sparse cs
  | [] => rfl
  | c :: rest => by
    rw [unplacedClauses, printClauses, printClauses, printClause_unplaced _ c,
      printClauses_unplaced _ rest]

theorem printComparison_unplaced (sparse : Bool) :
    (c : Comparison Expr) → printComparison sparse (unplacedComparison c)
    = printComparison sparse c
  | { op, right } => by
    rw [unplacedComparison, printComparison, printComparison, print_unplaced _ _ right]

theorem printComparisons_unplaced (sparse : Bool) : (cs : List (Comparison Expr)) →
    printComparisons sparse (unplacedComparisons cs) = printComparisons sparse cs
  | [] => rfl
  | c :: rest => by
    rw [unplacedComparisons, printComparisons, printComparisons, printComparison_unplaced _ c,
      printComparisons_unplaced _ rest]

theorem printKeyword_unplaced (sparse : Bool) :
    (k : Keyword Expr) → printKeyword sparse (unplacedKeyword k) = printKeyword sparse k
  | { name, value } => by
    rw [unplacedKeyword, printKeyword, printKeyword, print_unplaced _ _ value]

theorem printKeywords_unplaced (sparse : Bool) : (ks : List (Keyword Expr)) →
    printKeywords sparse (unplacedKeywords ks) = printKeywords sparse ks
  | [] => rfl
  | k :: rest => by
    rw [unplacedKeywords, printKeywords, printKeywords, printKeyword_unplaced _ k,
      printKeywords_unplaced _ rest]

theorem printParam_unplaced (sparse : Bool) :
    (p : Param Expr) → printParam sparse (unplacedParam p) = printParam sparse p
  | { name, annot, typeComment } => by
    rw [unplacedParam, printParam, printParam, printOption_unplaced _ annot]

theorem printParamList_unplaced (sparse : Bool) : (ps : List (Param Expr)) →
    printParamList sparse (unplacedParamList ps) = printParamList sparse ps
  | [] => rfl
  | p :: rest => by
    rw [unplacedParamList, printParamList, printParamList, printParam_unplaced _ p,
      printParamList_unplaced _ rest]

theorem printParamOption_unplaced (sparse : Bool) : (p : Option (Param Expr)) →
    printParamOption sparse (unplacedParamOption p) = printParamOption sparse p
  | none => rfl
  | some p => by
    rw [unplacedParamOption, printParamOption, printParamOption, printParam_unplaced _ p]

theorem printParams_unplaced (sparse : Bool) :
    (ps : Params Expr) → printParams sparse (unplacedParams ps) = printParams sparse ps
  | { posOnly, args, vararg, kwOnly, kwDefaults, kwarg, defaults } => by
    rw [unplacedParams, printParams, printParams, printParamList_unplaced _ posOnly,
      printParamList_unplaced _ args, printParamOption_unplaced _ vararg,
      printParamList_unplaced _ kwOnly, printOptions_unplaced _ kwDefaults,
      printParamOption_unplaced _ kwarg, printAll_unplaced _ defaults]

theorem printSpec_unplaced :
    (spec : Option Expr) → printSpec (unplacedOption spec) = printSpec spec
  | none => rfl
  | some spec => by
    rw [unplacedOption, printSpec, printSpec, printInner_unplaced spec]

theorem printInner_unplaced : (e : Expr) → printInner e.unplaced = printInner e
  | .joined _ parts => by
    rw [Expr.unplaced, printInner, printInner, printJoined_unplaced parts]
  | .constant _ (.str ..) => by
    rw [Expr.unplaced, printInner, printInner]
  | .formatted _ value _ spec => by
    rw [Expr.unplaced, printInner, printInner, print_unplaced _ _ value, printSpec_unplaced spec]
  | .constant _ .none | .constant _ (.bool _) | .constant _ .ellipsis | .constant _ (.int _)
  | .constant _ (.float _) | .constant _ (.imaginary _) | .constant _ (.bytes _)
  | .boolOp .. | .named .. | .binOp .. | .unaryOp .. | .lambda .. | .ifExp .. | .dict .. | .set ..
  | .listComp .. | .setComp .. | .dictComp .. | .generator .. | .await .. | .yield ..
  | .yieldFrom .. | .compare .. | .call .. | .attribute .. | .subscript .. | .starred ..
  | .name .. | .list .. | .tuple .. | .slice .. => by
    simp only [Expr.unplaced, printInner]

theorem printJoined_unplaced :
    (parts : List Expr) → printJoined (unplacedAll parts) = printJoined parts
  | [] => rfl
  | e :: rest => by
    rw [unplacedAll, printJoined, printJoined, printInner_unplaced e, printJoined_unplaced rest]

theorem printParts_unplaced :
    (parts : List Expr) → printParts (unplacedAll parts) = printParts parts
  | [] => rfl
  | e :: rest => by
    rw [unplacedAll, printParts, printParts, printInner_unplaced e, printParts_unplaced rest,
      isTextLiteral_unplaced]

end

theorem render_unplaced (e : Expr) : e.unplaced.render = e.render :=
  print_unplaced false Level.test e

/-- Expressions that are the same but for positions have the same text. -/
theorem render_eq_of_unplaced {e₁ e₂ : Expr} (h : e₁.unplaced = e₂.unplaced) :
    e₁.render = e₂.render := by
  rw [← render_unplaced e₁, h, render_unplaced]

/-! ## The form of an expression -/

section Forms

variable {span : Span} {e : Expr}

theorem subscript_of_unplaced {value index}
    (h : (Expr.subscript span value index).unplaced = e.unplaced) :
    ∃ span' value' index', e = .subscript span' value' index' ∧
      value.unplaced = value'.unplaced ∧ index.unplaced = index'.unplaced := by
  cases e with
  | subscript span' value' index' =>
    simp only [Expr.unplaced, Expr.subscript.injEq, true_and] at h
    exact ⟨span', value', index', rfl, h⟩
  | _ => cases h

theorem tuple_of_unplaced {elts} (h : (Expr.tuple span elts).unplaced = e.unplaced) :
    ∃ span' elts', e = .tuple span' elts' ∧
    elts.map Expr.unplaced = elts'.map Expr.unplaced := by
  cases e with
  | tuple span' elts' =>
    simp only [Expr.unplaced, Expr.tuple.injEq, true_and, unplacedAll_eq_map] at h
    exact ⟨span', elts', rfl, h⟩
  | _ => cases h

theorem list_of_unplaced {elts} (h : (Expr.list span elts).unplaced = e.unplaced) :
    ∃ span' elts', e = .list span' elts' ∧
    elts.map Expr.unplaced = elts'.map Expr.unplaced := by
  cases e with
  | list span' elts' =>
    simp only [Expr.unplaced, Expr.list.injEq, true_and, unplacedAll_eq_map] at h
    exact ⟨span', elts', rfl, h⟩
  | _ => cases h

theorem binOp_of_unplaced {left right op}
    (h : (Expr.binOp span left op right).unplaced = e.unplaced) :
    ∃ span' left' right', e = .binOp span' left' op right' ∧ left.unplaced = left'.unplaced ∧
      right.unplaced = right'.unplaced := by
  cases e with
  | binOp span' left' op' right' =>
    simp only [Expr.unplaced, Expr.binOp.injEq, true_and] at h
    obtain ⟨hleft, rfl, hright⟩ := h
    exact ⟨span', left', right', rfl, hleft, hright⟩
  | _ => cases h

theorem constant_of_unplaced {value} (h : (Expr.constant span value).unplaced = e.unplaced) :
    ∃ span', e = .constant span' value := by
  cases e with
  | constant span' value' =>
    simp only [Expr.unplaced, Expr.constant.injEq, true_and] at h
    exact ⟨span', h ▸ rfl⟩
  | _ => cases h

theorem Expr.eq_name_of_unplaced {id use} (h : e.unplaced = .name .nowhere id use) :
    ∃ span, e = .name span id use := by
  cases e <;> simp_all [unplaced]

theorem Expr.eq_unaryOp_of_unplaced {op operand} (h : e.unplaced = .unaryOp .nowhere op operand) :
    ∃ span inner, e = .unaryOp span op inner ∧ inner.unplaced = operand := by
  cases e with
  | unaryOp span op' inner =>
    simp only [unplaced, unaryOp.injEq, true_and] at h
    obtain ⟨rfl, hinner⟩ := h
    exact ⟨span, inner, rfl, hinner⟩
  | _ => cases h

theorem Expr.eq_boolOp_of_unplaced {op values} (h : e.unplaced = .boolOp .nowhere op values) :
    ∃ span inner, e = .boolOp span op inner ∧ unplacedAll inner = values := by
  cases e with
  | boolOp span op' inner =>
    simp only [unplaced, boolOp.injEq, true_and] at h
    obtain ⟨rfl, hinner⟩ := h
    exact ⟨span, inner, rfl, hinner⟩
  | _ => cases h

theorem Expr.eq_call_of_unplaced {func arg} (h : e.unplaced = .call .nowhere func [arg] []) :
    ∃ span f a, e = .call span f [a] [] ∧ f.unplaced = func ∧ a.unplaced = arg := by
  cases e with
  | call span f args keywords =>
    simp only [unplaced, unplacedAll_eq_map, unplacedKeywords_eq_map, call.injEq,
      List.map_eq_nil_iff] at h
    obtain ⟨-, hf, hargs, rfl⟩ := h
    obtain ⟨a, rfl, ha⟩ := List.map_eq_singleton_iff.1 hargs
    exact ⟨span, f, a, rfl, hf, ha⟩
  | _ => cases h

end Forms

end TypeStub.Syntax
