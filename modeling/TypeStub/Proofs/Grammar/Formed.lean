import Mathlib.Data.List.Induction
import TypeStub.Proofs.Grammar.Transport
import TypeStub.Proofs.Lexing.Literals
/-!
# What holds of every tree that is read

A tree can have shapes that no text has: a chain of one operand, or a text with numbers that are no
code points. What is read has none of them (`Phrase.formed`): an escape has too few digits to get
beyond the code points, or is checked against the last one.
-/

namespace TypeStub.Syntax

open Text

/-! ## Escapes -/

theorem hexValue?_lt {c : Char} {n : Nat} (h : hexValue? c = some n) : n < 16 := by
  have htoNat : c.val.toNat = c.toNat := rfl
  simp only [hexValue?, Char.le_def, UInt32.le_iff_toNat_le, htoNat] at h
  split at h
  · cases h
    simp at *
    omega
  · split at h
    · cases h
      simp at *
      omega
    · split at h
      · cases h
        simp at *
        omega
      · cases h

theorem ofDigits_lt {base : Nat} (hbase : base ≤ 16) (ds : List Char) :
    ofDigits base ds < Nat.pow 16 ds.length := by
  induction ds using List.reverseRecOn with
  | nil => exact Nat.one_pos
  | append_singleton ds c ih =>
    have hdigit : (hexValue? c).getD 0 < 16 := by
      cases hc : hexValue? c with
      | none => decide
      | some n => exact hexValue?_lt hc
    have hfront : ofDigits base ds * base ≤ ofDigits base ds * 16 := Nat.mul_le_mul_left _ hbase
    have hpow : Nat.pow 16 (ds.length + 1) = Nat.pow 16 ds.length * 16 := rfl
    rw [ofDigits_concat, List.length_append, List.length_singleton, hpow]
    omega

/-- At most four digits stand for a code point. -/
theorem ofDigits_lt_of_length {base : Nat} (hbase : base ≤ 16) {ds : List Char}
    (hlength : ds.length ≤ 4) : ofDigits base ds < 0x110000 :=
  Nat.lt_of_lt_of_le (ofDigits_lt hbase ds)
    (Nat.le_trans (Nat.pow_le_pow_right (by decide) hlength) (by decide))

theorem hexEscape?_lt {count n : Nat} {cs : List Char} (h : hexEscape? count cs = some n)
    (hcount : count ≤ 4) : n < 0x110000 := by
  unfold hexEscape? at h
  simp only at h
  split at h
  · cases h
    exact ofDigits_lt_of_length (by decide)
      (Nat.le_trans (List.length_take_le count cs) hcount)
  · cases h

theorem toNat_lt (c : Char) : c.toNat < 0x110000 :=
  lt_of_isValidChar c.valid

theorem commonEscape?_lt {cs : List Char} {values size}
    (h : commonEscape? cs = some (some (values, size))) : ∀ n ∈ values, n < 0x110000 := by
  unfold commonEscape? at h
  split at h
  · cases h
    simp
  · cases h
    simp
  · next c rest _ =>
    split at h
    · cases h
      simpa using toNat_lt c
    · split at h
      · obtain ⟨n, hn, heq⟩ := Option.map_eq_some_iff.1 (Option.some.inj h)
        cases heq
        simpa using hexEscape?_lt hn (by decide)
      · split at h
        · next n hn =>
          cases h
          unfold controlEscape? at hn
          split at hn <;> cases hn <;> simp
        · split at h
          · cases h
          · cases h
            have hlength : (octalDigits (c :: rest)).length ≤ 3 :=
              Nat.le_trans (List.takeWhile_prefix _).length_le (List.length_take_le ..)
            simpa using ofDigits_lt_of_length (by decide) (Nat.le_succ_of_le hlength)

theorem textEscape?_lt {cs : List Char} {values size} (h : textEscape? cs = some (values, size)) :
    ∀ n ∈ values, n < 0x110000 := by
  unfold textEscape? at h
  split at h
  · next hcommon => exact commonEscape?_lt (h ▸ hcommon)
  · split at h
    · obtain ⟨n, hn, heq⟩ := Option.map_eq_some_iff.1 h
      cases heq
      simpa using hexEscape?_lt hn (by decide)
    · split at h
      · split at h
        · cases h
          simp
          omega
        · cases h
      · cases h
    · simp only at h
      split at h
      · obtain ⟨c, -, heq⟩ := Option.map_eq_some_iff.1 h
        cases heq
        simpa using toNat_lt c
      · cases h
    · cases h
    · cases h
      simpa using toNat_lt _
    · cases h

/-- A literal text consists of code points. -/
theorem decodeEscapes_lt {skip : Nat} {cs : List Char} {ps}
    (h : decodeEscapes textEscape? skip cs = some ps) : ∀ n ∈ ps, n < 0x110000 := by
  fun_induction decodeEscapes textEscape? skip cs generalizing ps with
  | case1 =>
    cases h
    simp
  | case2 skip c rest ih => exact ih h
  | case3 => cases h
  | case4 c rest hc values size hescape ih =>
    obtain ⟨more, hmore, rfl⟩ := Option.map_eq_some_iff.1 h
    exact List.forall_mem_append.2 ⟨textEscape?_lt hescape, ih hmore⟩
  | case5 c rest hc ih =>
    obtain ⟨more, hmore, rfl⟩ := Option.map_eq_some_iff.1 h
    exact List.forall_mem_cons.2 ⟨toNat_lt c, ih hmore⟩

theorem decodeText_lt {raw : Bool} {cs : List Char} {ps} (h : decodeText raw cs = some ps) :
    ∀ n ∈ ps, n < 0x110000 := by
  unfold decodeText at h
  split at h
  · cases h
    simpa using fun c _ => toNat_lt c
  · exact decodeEscapes_lt h

/-! ## Trees -/

mutual

/-- What holds of every formula that is read: its chains have several operands, and its texts
consist of code points. -/
def Expr.Formed : Expr → Prop
  | .constant _ (.str ps _) => ∀ n ∈ ps, n < 0x110000
  | .call _ _ args _ => AllFormed args
  | .unaryOp _ _ operand => operand.Formed
  | .boolOp _ _ values => 2 ≤ values.length ∧ AllFormed values
  | _ => True

def AllFormed : List Expr → Prop
  | [] => True
  | e :: rest => e.Formed ∧ AllFormed rest

end

theorem allFormed_iff {es : List Expr} : AllFormed es ↔ ∀ e ∈ es, e.Formed := by
  induction es with
  | nil => simp [AllFormed]
  | cons e rest ih => simp [AllFormed, ih]

def Tree.Formed : Tree → Prop
  | .expr e | .argument (.positional e) | .argument (.starred e) => e.Formed
  | _ => True

theorem ArgState.addAll_formed {s st : ArgState} {as} (h : s.addAll as = some st)
    (hs : ∀ e ∈ s.args, e.Formed) (has : ∀ a ∈ as, (Tree.argument a).Formed) :
    ∀ e ∈ st.args, e.Formed := by
  induction as generalizing s with
  | nil =>
    cases h
    exact hs
  | cons a as ih =>
    obtain ⟨s', hs', h⟩ := Option.bind_eq_some_iff.1 h
    obtain ⟨ha, has⟩ := List.forall_mem_cons.1 has
    refine ih h ?_ has
    cases a with
    | positional e | starred e =>
      simp only [add] at hs'
      split at hs'
      · cases hs'
      · cases hs'
        exact List.forall_mem_append.2 ⟨hs, List.forall_mem_singleton.2 ha⟩
    | named id e | unpacked e =>
      cases hs'
      exact hs

theorem plainPieces_lt {tokens : List StringToken} {pieces}
    (h : tokens.mapM StringToken.plainPieces = some pieces) :
    ∀ ps, Piece.text ps ∈ pieces.flatten → ∀ n ∈ ps, n < 0x110000 := by
  induction tokens generalizing pieces with
  | nil =>
    cases h
    simp
  | cons t tokens ih =>
    rw [List.mapM_cons] at h
    obtain ⟨p, hp, h⟩ := Option.bind_eq_some_iff.1 h
    obtain ⟨more, hmore, h⟩ := Option.bind_eq_some_iff.1 h
    obtain ⟨ps, hps, rfl⟩ := Option.map_eq_some_iff.1 hp
    cases h
    intro qs hqs
    rcases List.mem_cons.1 hqs with heq | hqs
    · cases heq
      exact decodeText_lt hps
    · exact ih hmore qs hqs

theorem concatLiterals_formed {r span literals e} (h : concatLiterals r span literals = some e) :
    e.Formed := by
  cases literals with
  | nil => cases h
  | cons first more =>
    simp only [concatLiterals] at h
    split at h
    · obtain ⟨parts, -, h⟩ := Option.bind_eq_some_iff.1 h
      cases h
      trivial
    · split at h
      · cases h
      · obtain ⟨pieces, hpieces, h⟩ := Option.bind_eq_some_iff.1 h
        split at h
        · cases h
          trivial
        · next hplain =>
          rw [mapM_tokenPieces (by simpa using hplain), mapM_fst] at hpieces
          cases h
          intro n hn
          obtain ⟨piece, hpiece, hn⟩ := List.mem_flatMap.1 hn
          cases piece with
          | text ps => exact plainPieces_lt hpieces ps hpiece n hn
          | expr e => cases hn

/-- The grammar has no chains of one operand, and its literals are decoded. -/
theorem Phrase.formed {d f ts xs} (h : Phrase d f ts xs)
    (hts : ∀ t ∈ ts, ∀ c, t.kind = .number c → c.isNumber = true) :
    ∀ x ∈ xs, x.Formed := by
  induction h with
  | manyCons _ _ ih ihs | moreParams _ _ ih ihs | commas _ _ _ _ ih ihs =>
    exact List.forall_mem_cons.2 ⟨ih (fun t ht =>
      hts t (by simp [ht])) _ (List.mem_singleton_self _),
      ihs fun t ht => hts t (by simp [ht])⟩
  | further _ _ ih | condition _ _ ih | step _ _ ih | operand _ _ ih | annot _ _ ih | default _ _ ih
  | single _ ih | unstarred _ ih | unnamed _ ih | arguments _ ih | bound _ ih | plainSlice _ ih
  | index _ _ ih | atom _ ih | lift _ _ _ ih | lastParam _ ih | group _ _ _ _ ih =>
    exact ih fun t ht => hts t (by simp [ht])
  | positional _ ih | sign _ _ ih | inversion _ _ ih =>
    have hformed := List.forall_mem_singleton.1 (ih fun t ht => hts t (by simp [ht]))
    exact List.forall_mem_singleton.2 hformed
  | @number t c ht =>
    have hc := hts t (List.mem_singleton_self t) c ht
    refine List.forall_mem_singleton.2 ?_
    cases c with
    | str ps marked => cases hc
    | _ => trivial
  | strings hc => exact List.forall_mem_singleton.2 (concatLiterals_formed hc)
  | @targets ts e target _ ht _ =>
    refine List.forall_mem_singleton.2 ?_
    cases e with
    | starred | tuple | list =>
      obtain ⟨_, -, rfl⟩ := Option.map_eq_some_iff.1 ht
      trivial
    | _ => cases ht <;> trivial
  | call _ _ _ _ hst ihe ihas =>
    refine List.forall_mem_singleton.2
      (allFormed_iff.2 (ArgState.addAll_formed hst (by simp [ArgState.empty]) ?_))
    exact fun a ha => ihas (fun t ht => hts t (by simp [ht])) _ (List.mem_map_of_mem ha)
  | boolOp _ _ hes ihe ihes =>
    refine List.forall_mem_singleton.2 ⟨?_, ?_, ?_⟩
    · have := List.length_pos_iff.2 hes
      simp
      omega
    · exact ihe (fun t ht => hts t (by simp [ht])) _ (List.mem_singleton_self _)
    · exact allFormed_iff.2 fun e he =>
        ihes (fun t ht => hts t (by simp [ht])) _ (List.mem_map_of_mem he)
  | constant _ hc =>
    unfold keywordConstant? at hc
    split at hc <;> cases hc <;> exact List.forall_mem_singleton.2 trivial
  | _ => simp [Tree.Formed, Expr.Formed, AllFormed]

end TypeStub.Syntax
