import Mathlib.Data.List.Forall2
import TypeStub.Formatter.Job
import TypeStub.Proofs.Text.Marks
/-!
# Formatter commands are expanded at once

The placeholders of a command are replaced one after the other, those for files last and after a
second look at the argument. It comes to the same as replacing all of them at once: numbers and the
name of the interpreter share no character with a placeholder, so nothing that is put in becomes
part of one.
-/

namespace TypeStub

open TypeStub.Text

/-! ## Paths in order -/

namespace Path

theorem nodup_eraseDups (paths : List Path) : paths.eraseDups.Nodup := by
  induction hn : paths.length using Nat.strongRecOn generalizing paths with
  | ind n ih =>
    subst hn
    cases paths with
    | nil => simp
    | cons p rest =>
      rw [List.eraseDups_cons]
      refine List.nodup_cons.2 ⟨by simp, ih _ ?_ _ rfl⟩
      exact Nat.lt_succ_of_le (List.length_filter_le _ _)

/-- Each of the given paths stands in the list once, none before a smaller one. -/
structure InOrder (paths sorted : List Path) : Prop where
  mem : ∀ p, p ∈ sorted ↔ p ∈ paths
  nodup : sorted.Nodup
  ordered : sorted.Pairwise fun p q => q.before p = false

theorem sorted_inOrder (paths : List Path) : InOrder paths (sorted paths) where
  mem p := by
    rw [sorted, List.mem_mergeSort, List.mem_eraseDups]
  nodup := (List.mergeSort_perm _ _).nodup_iff.2 (nodup_eraseDups paths)
  ordered := by
    refine (List.pairwise_mergeSort ?_ ?_ _).imp fun h => by simpa using h
    · intro p q r hpq hqr
      simp only [before, Bool.not_eq_true', decide_eq_false_iff_not] at *
      exact List.not_lt.2 (List.le_trans (List.not_lt.1 hpq) (List.not_lt.1 hqr))
    · intro p q
      simp only [before, Bool.or_eq_true, Bool.not_eq_true', decide_eq_false_iff_not]
      exact (List.le_total p.parts q.parts).imp List.not_lt.2 List.not_lt.2

end Path

namespace Formatter

/-! ## What placeholders stand for -/

def asChanges (changes : List (String × String)) : Changes :=
  changes.map fun change => (change.1.toList, change.2.toList)

def Setup.meanings (s : Setup) (file : String) : Changes :=
  asChanges (s.changes ++ [(fileMark, file), (filesMark, file)])

def expand (s : Setup) (file arg : String) : String :=
  String.ofList (substitute (s.meanings file) arg.toList)

/-- Placeholders that leave those after them alone are replaced as if at once. -/
theorem toList_replaceEach {changes : List (String × String)}
    (hmarks : ∀ change ∈ asChanges changes, IsMark change.1)
    (hpairs : (asChanges changes).Pairwise fun a b => Spares a b.1) (arg : String) :
    (replaceEach changes arg).toList = substitute (asChanges changes) arg.toList := by
  have hall := foldl_replaceAll [] hmarks (by simp) hpairs arg.toList
  rw [substitute_nil, asChanges, List.foldl_map] at hall
  rw [replaceEach, String.toList_ofList]
  exact hall

theorem mem_decimalInt {n : Int} {c : Char} (h : c ∈ (decimalInt n).toList) :
    c = '-' ∨ c.isDigit = true := by
  cases n with
  | ofNat n => exact .inr (isDigit_iff.1 (isDigit_of_mem_decimal h))
  | negSucc n =>
    rw [decimalInt, String.toList_append] at h
    rcases List.mem_append.1 h with h | h
    · exact .inl (by simpa using h)
    · exact .inr (isDigit_iff.1 (isDigit_of_mem_decimal h))

theorem decimalInt_spares {mark later : List Char} (n : Int) (hmark : IsMark mark)
    (h : ∀ c ∈ later, c ≠ '-' ∧ c.isDigit = false) :
    Spares (mark, (decimalInt n).toList) later where
  isMark := hmark
  filled := by cases n <;> simp [decimalInt, decimal, Nat.toDigits_ne_nil]
  foreign c hc hin := by
    rcases mem_decimalInt hc with rfl | hdigit
    · exact (h _ hin).1 rfl
    · simp [(h c hin).2] at hdigit

/-- A placeholder for files: what the other placeholders stand for shares no character with it, and
none of them is the start of the other. -/
structure IsFileMark (mark : String) : Prop where
  isMark : IsMark mark.toList
  letters : ∀ c ∈ mark.toList, c ≠ '-' ∧ c.isDigit = false ∧ c ∉ "PYEXE".toList
  apart : ∀ other ∈ ["$\x7bdubstub_py_major\x7d", "$\x7bdubstub_py_minor\x7d",
    "$\x7bdubstub_py_exe\x7d"], ¬ other.toList <+: mark.toList ∧ ¬ mark.toList <+: other.toList

theorem isFileMark_fileMark : IsFileMark fileMark := ⟨by decide, by simp [fileMark], by decide⟩

theorem isFileMark_filesMark : IsFileMark filesMark :=
  ⟨by decide, by simp [filesMark], by decide⟩

theorem changes_pairwise (s : Setup) :
    (asChanges s.changes).Pairwise fun a b => Spares a b.1 := by
  simp only [asChanges, Setup.changes, List.map_cons, List.map_nil, List.pairwise_cons,
    List.forall_mem_cons, List.not_mem_nil, false_implies, implies_true,
    List.Pairwise.nil, and_true]
  exact ⟨⟨decimalInt_spares _ (by decide) (by simp),
    decimalInt_spares _ (by decide) (by simp)⟩, decimalInt_spares _ (by decide) (by simp)⟩

section Expansion

variable {s : Setup} (hs : s.interpreter = "PYEXE") {mark : String} (hmark : IsFileMark mark)
include hs hmark

theorem changes_spares : ∀ change ∈ asChanges s.changes, Spares change mark.toList := by
  have hdigits : ∀ c ∈ mark.toList, c ≠ '-' ∧ c.isDigit = false := fun c hc =>
    ⟨(hmark.letters c hc).1, (hmark.letters c hc).2.1⟩
  intro change hchange
  simp only [asChanges, Setup.changes, hs, List.map_cons, List.map_nil, List.mem_cons,
    List.not_mem_nil, or_false] at hchange
  rcases hchange with rfl | rfl | rfl
  · exact decimalInt_spares s.major (by decide) hdigits
  · exact decimalInt_spares s.minor (by decide) hdigits
  · exact ⟨by decide, by decide, fun c hc hin => (hmark.letters c hin).2.2 hc⟩

theorem toList_replaceEach_changes (arg : String) :
    (replaceEach s.changes arg).toList = substitute (asChanges s.changes) arg.toList :=
  toList_replaceEach (fun change hmem => (changes_spares hs hmark change hmem).isMark)
    (changes_pairwise s) arg

theorem toList_replaceEach_file (file arg : String) :
    (replaceEach [(mark, file)] (replaceEach s.changes arg)).toList
      = substitute (asChanges s.changes ++ [(mark.toList, file.toList)]) arg.toList := by
  rw [← substitute_substitute hmark.isMark (changes_spares hs hmark),
    ← toList_replaceEach_changes hs hmark]
  exact toList_replaceEach (by simpa [asChanges] using hmark.isMark) (by simp [asChanges]) _

theorem infix_replaceEach (arg : String) :
    mark.toList <:+: (replaceEach s.changes arg).toList ↔ mark.toList <:+: arg.toList := by
  rw [toList_replaceEach_changes hs hmark]
  refine infix_substitute_iff hmark.isMark (changes_spares hs hmark) fun change hchange => ?_
  obtain ⟨other, hother, rfl⟩ := List.mem_map.1 hchange
  exact hmark.apart other.1
    (by simpa [Setup.changes] using List.mem_map_of_mem (f := Prod.fst) hother)

end Expansion

section Arguments

variable {s : Setup} (hs : s.interpreter = "PYEXE") {file arg : String}
include hs

theorem replaceEach_fileMark (h : ¬ filesMark.toList <:+: arg.toList) :
    replaceEach [(fileMark, file)] (replaceEach s.changes arg) = expand s file arg := by
  rw [← String.toList_inj, toList_replaceEach_file hs isFileMark_fileMark, expand,
    String.toList_ofList]
  rw [← List.append_nil (_ ++ _), ← substitute_absent _ file.toList [] h]
  simp [Setup.meanings, asChanges]

theorem replaceEach_filesMark (h : ¬ fileMark.toList <:+: arg.toList) :
    replaceEach [(filesMark, file)] (replaceEach s.changes arg) = expand s file arg := by
  rw [← String.toList_inj, toList_replaceEach_file hs isFileMark_filesMark, expand,
    String.toList_ofList, ← substitute_absent _ file.toList _ h]
  simp [Setup.meanings, asChanges]

theorem replaceEach_changes (h : ¬ fileMark.toList <:+: arg.toList)
    (h' : ¬ filesMark.toList <:+: arg.toList) : replaceEach s.changes arg = expand s file arg := by
  rw [← String.toList_inj, toList_replaceEach_changes hs isFileMark_fileMark, expand,
    String.toList_ofList, ← List.append_nil (asChanges _), ← substitute_absent _
    file.toList [] h', ← substitute_absent _ file.toList _ h]
  simp [Setup.meanings, asChanges]

/-- What an argument becomes in a command line for all files. -/
theorem spread_eq {paths : List Path} (h : ¬ fileMark.toList <:+: arg.toList) :
    (filesMark.toList <:+: arg.toList → spread s paths arg = paths.map fun p =>
    expand s p.text arg) ∧
      (¬ filesMark.toList <:+: arg.toList → ∀ file,
      spread s paths arg = [expand s file arg]) := by
  have huse := occurs_iff.trans (infix_replaceEach hs isFileMark_filesMark arg)
  constructor
  · intro hfiles
    rw [spread, if_pos (huse.2 hfiles)]
    exact List.map_congr_left fun p _ => replaceEach_filesMark hs h
  · intro hfiles file
    rw [spread, if_neg (mt huse.1 hfiles), replaceEach_changes hs h hfiles]

end Arguments

/-! ## Jobs -/

/-- An argument of the command has the placeholder. -/
def Has (mark : String) (command : FormatterCmd) : Prop :=
  ∃ arg ∈ command.cmdline, mark.toList <:+: arg.toList

theorem uses_iff {mark : String} {command : FormatterCmd} :
    uses mark command.cmdline = true ↔ Has mark command := by
  simp only [uses, List.any_eq_true, occurs_iff, Has]

variable {s : Setup} {command : FormatterCmd} {paths : List Path}

theorem jobs_eq_error : (∃ cause, jobs s command paths = .error cause) ↔
    (Has fileMark command ↔ Has filesMark command) := by
  rw [← uses_iff, ← uses_iff, ← Bool.eq_iff_iff, jobs]
  by_cases hsame : uses fileMark command.cmdline = uses filesMark command.cmdline
  · rw [if_pos (by simpa using hsame)]
    exact ⟨fun _ => hsame, fun _ => ⟨_, rfl⟩⟩
  · rw [if_neg (by simpa using hsame)]
    split <;> simp [hsame]

theorem jobs_of_one (hs : s.interpreter = "PYEXE") (hone : Has fileMark command)
    (hall : ¬ Has filesMark command) : jobs s command paths = .ok ((Path.sorted paths).map fun p =>
      { command with cmdline := command.cmdline.map (expand s p.text) }) := by
  have hcmd (p : Path) : (command.cmdline.map fun arg =>
      replaceEach [(fileMark, p.text)] (replaceEach s.changes arg))
        = command.cmdline.map (expand s p.text) :=
    List.map_congr_left fun arg harg => replaceEach_fileMark hs fun h => hall ⟨arg, harg, h⟩
  simp [jobs, uses_iff.2 hone, Bool.eq_false_iff.2 (mt uses_iff.1 hall), hcmd]

theorem jobs_of_all (hall : Has filesMark command) (hone : ¬ Has fileMark command) :
    jobs s command paths
      = .ok [{ command with
        cmdline := command.cmdline.flatMap (spread s (Path.sorted paths)) }] := by
  simp [jobs, uses_iff.2 hall, Bool.eq_false_iff.2 (mt uses_iff.1 hone)]

/-- A command is refused if it has both or none of the placeholders for files. One for single files
gives a command line for each file, in order, and one for all files gives a single command line,
where an argument with the placeholder stands once for each file, in order. Each argument is that of
the template with all placeholders replaced at once. -/
theorem jobs_expanded (major minor : Int) (command : FormatterCmd) (paths : List Path) :
    let s : Setup := { major, minor, interpreter := "PYEXE" }
    ∃ sorted, Path.InOrder paths sorted ∧
      ((∃ cause, jobs s command paths = .error cause) ↔
        (Has fileMark command ↔ Has filesMark command)) ∧
      (Has fileMark command → ¬ Has filesMark command →
        jobs s command paths = .ok (sorted.map fun p =>
          { command with cmdline := command.cmdline.map (expand s p.text) })) ∧
      (Has filesMark command → ¬ Has fileMark command → ∃ lines : List (List String),
        jobs s command paths = .ok [{ command with cmdline := lines.flatten }] ∧
        List.Forall₂ (fun arg line =>
          (filesMark.toList <:+: arg.toList → line = sorted.map fun p => expand s p.text arg) ∧
          (¬ filesMark.toList <:+: arg.toList → ∀ file, line = [expand s file arg]))
          command.cmdline lines) := by
  refine ⟨Path.sorted paths, Path.sorted_inOrder paths, jobs_eq_error, jobs_of_one rfl,
    fun hall hone => ⟨_, jobs_of_all hall hone, ?_⟩⟩
  rw [List.forall₂_map_right_iff, List.forall₂_same]
  exact fun arg harg => spread_eq rfl fun h => hone ⟨arg, harg, h⟩

end Formatter

end TypeStub
