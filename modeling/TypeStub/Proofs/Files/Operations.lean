import TypeStub.Proofs.Files.Observation
import TypeStub.Proofs.Results
/-!
# What operations on files do

In a plain tree an absolute path without `..` leads to the place it names. The operations of a
generation run are described by what they do to the view of the tree:

* `remove_ok`: nothing is left at and below the place;
* `makeDirs_ok`: the place and all places above it are directories, and were so if they existed;
* `writeText_ok`, `copy_ok`: there is a file at the place.

Everything else is seen as before.
-/

namespace TypeStub.Files

namespace Store

variable {s s' : Store} {place here names parent : List String} {name : String}

abbrev at? (s : Store) (place : List String) : Option Item := s.root.at? place

/-- None of the names leads back. -/
def Forward (names : List String) : Prop := ∀ name ∈ names, name ≠ ".."

theorem forward_append {a b} : Forward (a ++ b) ↔ Forward a ∧ Forward b :=
  List.forall_mem_append

theorem forward_single : Forward [name] ↔ name ≠ ".." :=
  List.forall_mem_singleton

theorem forward_name (h : Forward names) : (Path.absolute names).name ≠ ".." := by
  unfold Path.name
  obtain rfl | ⟨front, name, rfl⟩ := List.eq_nil_or_concat' names
  · decide
  · simpa [Path.absolute] using h name (by simp)

theorem not_concat_above : ¬ parent ++ [name] <+: parent := by
  intro h
  have := h.length_le
  rw [List.length_append, List.length_singleton] at this
  omega

/-! ## Paths lead to the places they name -/

variable {last : Bool} {follow : List String → List String → Except Fault (List String)}

theorem step_of_ok {missing} (hplain : s.root.Plain) (hnames : Forward names)
    (h : s.step last missing follow here names = .ok place) :
    place = here ++ names ∧ (names ≠ [] → s.at? (here ++ names.dropLast) = some .dir) := by
  induction names generalizing here with
  | nil =>
    rw [step] at h
    exact ⟨by simpa using (Except.ok.inj h).symm, fun hne => absurd rfl hne⟩
  | cons name rest ih =>
    obtain ⟨hname, hrest⟩ := List.forall_mem_cons.1 hnames
    rw [step] at h
    split at h
    · next entries hhere =>
      rw [if_neg (by simpa using hname)] at h
      split at h
      · next target hlink =>
        -- there are no links
        cases (hplain.find? hhere).1.lookup hlink
      · next e _ hentry =>
        obtain ⟨rfl, hdir⟩ := ih hrest h
        refine ⟨by simp, fun _ => ?_⟩
        cases rest with
        | nil => simpa using Entry.at?_eq_dir.2 ⟨entries, hhere⟩
        | cons next more => simpa using hdir (List.cons_ne_nil _ _)
      · split at h
        · next hempty =>
          obtain rfl := List.isEmpty_iff.1 hempty
          exact ⟨(Except.ok.inj h).symm,
            fun _ => by simpa using Entry.at?_eq_dir.2 ⟨entries, hhere⟩⟩
        · cases h
    · cases h
    · cases h

theorem step_ok {missing} (hplain : s.root.Plain) (hnames : Forward (names ++ [name]))
    (h : s.at? (here ++ names) = some .dir) :
    s.step last missing follow here (names ++ [name]) = .ok (here ++ (names ++ [name])) := by
  induction names generalizing here with
  | nil =>
    obtain ⟨entries, hhere⟩ := Entry.at?_eq_dir.1 h
    rw [List.append_nil] at hhere
    have hname : ¬ (name == "..") = true := by simpa using hnames name (by simp)
    rw [List.nil_append, step, hhere]
    simp only [hname]
    cases hentry : entries.lookup name with
    | none => rfl
    | some e =>
      cases (hplain.find? hhere).1.lookup hentry <;> simp [step]
  | cons first rest ih =>
    obtain ⟨hfirst, hrest⟩ := List.forall_mem_cons.1 hnames
    rw [List.append_cons] at h
    obtain ⟨below, hnext⟩ := Entry.at?_eq_dir.1 (Entry.at?_dir_above h (List.prefix_append _ _))
    obtain ⟨entries, hhere⟩ := Entry.find?_dir_of_append hnext (List.cons_ne_nil _ _)
    have hlookup : entries.lookup first = some (.dir below) := by
      rw [Entry.find?_append, hhere, Option.bind_some, Entry.find?_single] at hnext
      exact hnext
    have hname : ¬ (first == "..") = true := by simpa using hfirst
    rw [List.cons_append, step, hhere]
    simp only [hname, hlookup]
    cases (hplain.find? hhere).1.lookup hlookup
    simpa using ih hrest h

section Absolute

variable (hplain : s.root.Plain) (hnames : Forward names)
include hplain hnames

/-- An absolute path leads to the place it names, if this lies in a directory. -/
theorem place_absolute : s.place (.absolute names) last = .ok place ↔
      place = names ∧ (names = [] ∨ s.at? names.dropLast = some .dir) := by
  have hwalk : s.place (.absolute names) last
      = s.step last (.notFound (Path.absolute names).text) (s.walk last (.notFound
        (Path.absolute names).text) 39) [] names := rfl
  rw [hwalk]
  constructor
  · intro h
    obtain ⟨heq, hdir⟩ := step_of_ok hplain hnames h
    refine ⟨heq, ?_⟩
    by_cases hne : names = []
    · exact .inl hne
    · exact .inr (hdir hne)
  · rintro ⟨rfl, hdir⟩
    obtain rfl | ⟨front, name, rfl⟩ := List.eq_nil_or_concat' place
    · rfl
    · rw [List.dropLast_concat] at hdir
      exact step_ok hplain hnames (hdir.resolve_left (by simp))

theorem locate_absolute {e} : s.locate (.absolute names) last = .ok (place, e) ↔
      place = names ∧ s.root.find? names = some e := by
  have hparent : s.root.find? names = some e → names = [] ∨
      s.at? names.dropLast = some .dir := by
    intro h
    obtain rfl | ⟨front, name, rfl⟩ := List.eq_nil_or_concat' names
    · exact .inl rfl
    · rw [List.dropLast_concat]
      exact .inr (Entry.at?_eq_dir.2 (Entry.find?_dir_of_append h (List.cons_ne_nil _ _)))
  unfold locate
  constructor
  · intro h
    obtain ⟨_, hplace, h⟩ := ok_of_bind h
    obtain ⟨rfl, _⟩ := (place_absolute hplain hnames).1 hplace
    split at h
    · next he =>
      cases h
      exact ⟨rfl, he⟩
    · cases h
  · rintro ⟨rfl, he⟩
    rw [(place_absolute hplain hnames).2 ⟨rfl, hparent he⟩]
    simp only [bind, Except.bind, he]
    rfl

theorem entry?_absolute : s.entry? (.absolute names) = s.root.find? names := by
  unfold entry?
  cases hfound : s.root.find? names with
  | some e => rw [(locate_absolute hplain hnames).2 ⟨rfl, hfound⟩]; rfl
  | none =>
    cases hlocate : s.locate (.absolute names) true with
    | error fault => rfl
    | ok x =>
      obtain ⟨_, he⟩ := (locate_absolute hplain hnames).1 hlocate
      rw [hfound] at he
      cases he

theorem isDir_absolute : s.isDir (.absolute names) = true ↔ s.at? names = some .dir := by
  rw [isDir, entry?_absolute hplain hnames, Entry.at?_eq_dir]
  cases s.root.find? names with
  | none => simp
  | some e => cases e <;> simp [Entry.isDir]

theorem isFile_absolute : s.isFile (.absolute names) = true ↔
      ∃ content executable, s.at? names = some (.file content executable) := by
  rw [isFile, entry?_absolute hplain hnames]
  simp only [Entry.at?_eq_file]
  cases s.root.find? names with
  | none => simp
  | some e => cases e <;> simp [Entry.isFile]

theorem pathExists_absolute : s.pathExists (.absolute names) = (s.root.find? names).isSome := by
  rw [pathExists, entry?_absolute hplain hnames]

theorem isLink_absolute : s.isLink (.absolute names) = false := by
  unfold isLink
  cases hlocate : s.locate (.absolute names) false with
  | error fault => rfl
  | ok x =>
    obtain ⟨place, e⟩ := x
    obtain ⟨_, he⟩ := (locate_absolute hplain hnames).1 hlocate
    cases (hplain.find? he).1 with
    | file => rfl
    | dir => rfl

theorem list_dir {entries} (h : s.root.find? names = some (.dir entries)) :
    s.list (.absolute names) = .ok (Entry.dir entries).names := by
  rw [list, (locate_absolute hplain hnames).2 ⟨rfl, h⟩]
  rfl

theorem list_of_ok {found} (h : s.list (.absolute names) = .ok found) :
    ∃ entries, s.root.find? names = some (.dir entries) ∧
    found = (Entry.dir entries).names := by
  unfold list at h
  obtain ⟨⟨place, e⟩, hlocate, h⟩ := ok_of_bind h
  obtain ⟨_, he⟩ := (locate_absolute hplain hnames).1 hlocate
  split at h
  · next entries heq =>
    obtain ⟨_, rfl⟩ := Prod.mk.inj heq
    exact ⟨entries, he, (Except.ok.inj h).symm⟩
  · cases h

end Absolute

variable (hplain : s.root.Plain)
include hplain

/-- There are no links, so that resolving a path goes the way that the path leads. -/
theorem resolveStep_of_ok {missing} {jump : List String → List String → List String}
    (h : s.step last missing follow here names = .ok place) :
    s.resolveStep jump here names = place := by
  induction names generalizing here with
  | nil =>
    rw [step] at h
    exact Except.ok.inj h
  | cons name rest ih =>
    rw [step] at h
    split at h
    · next entries hhere =>
      have hfind : s.root.find? (here ++ [name]) = entries.lookup name := by
        rw [Entry.find?_concat, hhere]
        rfl
      rw [resolveStep]
      split at h
      · next hback =>
        rw [if_pos hback]
        exact ih h
      · next hname =>
        rw [if_neg hname, hfind]
        split at h
        · next target hlink =>
          cases (hplain.find? hhere).1.lookup hlink
        · next e hlink hentry =>
          rw [hentry]
          split
          · next target heq => exact absurd (Option.some.inj heq) (hlink target)
          · exact ih h
        · next hnone =>
          rw [hnone]
          split at h
          · next hempty =>
            obtain rfl := List.isEmpty_iff.1 hempty
            simpa [resolveStep] using Except.ok.inj h
          · cases h
    · cases h
    · cases h

theorem find?_resolve {p e} (h : s.entry? p = some e) :
    s.root.find? (s.resolve p).names = some e := by
  unfold entry? at h
  cases hlocate : s.locate p true with
  | error fault => simp [hlocate, Except.toOption] at h
  | ok x =>
    obtain ⟨place, found⟩ := x
    obtain rfl : found = e := by simpa [hlocate, Except.toOption] using h
    obtain ⟨_, hplace, hfound⟩ := ok_of_bind hlocate
    split at hfound
    · next he =>
      cases hfound
      have hstep : s.step true (.notFound p.text) (s.walk true (.notFound p.text) 39) (s.origin p).1
          (s.origin p).2 = .ok place := hplace
      rw [show (s.resolve p).names = place from resolveStep_of_ok hplain hstep, he]
    · cases hfound

theorem at?_resolve {p} (h : s.isDir p = true) : s.at? (s.resolve p).names = some .dir := by
  obtain ⟨e, he, hdir⟩ := (Option.any_eq_true _ _).1 h
  cases e with
  | dir entries => exact Entry.at?_eq_dir.2 ⟨entries, find?_resolve hplain he⟩
  | file content executable | link target => cases hdir

/-! ## Removing -/

theorem erase_ok (hnames : Forward (parent ++ [name]))
    (hparent : s.at? parent = some .dir) : (s.eraseAt (parent ++ [name])).root.Plain ∧
      ∀ q, (s.eraseAt (parent ++ [name])).at? q
        = if parent ++ [name] <+: q then none else s.at? q :=
  ⟨hplain.erase hparent (hnames name (by simp)), Entry.at?_erase hplain hparent⟩

/-- Whatever was at a place is gone with everything below it. -/
theorem remove_ok (hnames : Forward (parent ++ [name]))
    (h : s.remove (.absolute (parent ++ [name])) = .ok s') :
    s'.root.Plain ∧ ∀ q, s'.at? q = if parent ++ [name] <+: q then none else s.at? q := by
  have hremove : ∀ e, s.root.find? (parent ++ [name]) = some e →
      s' = s.eraseAt (parent ++ [name]) →
      s'.root.Plain ∧ ∀ q, s'.at? q = if parent ++ [name] <+: q then none else s.at? q := by
    rintro e he rfl
    exact erase_ok hplain hnames
      (Entry.at?_eq_dir.2 (Entry.find?_dir_of_append he (List.cons_ne_nil _ _)))
  unfold remove at h
  split at h
  · unfold removeFile at h
    obtain ⟨⟨place, e⟩, hlocate, h⟩ := ok_of_bind h
    obtain ⟨rfl, he⟩ := (locate_absolute hplain hnames).1 hlocate
    split at h
    · cases h
    · next heq =>
      obtain ⟨rfl, _⟩ := Prod.mk.inj heq
      exact hremove e he (Except.ok.inj h).symm
  · next hfile =>
    split at h
    · unfold removeTree at h
      obtain ⟨⟨place, e⟩, hlocate, h⟩ := ok_of_bind h
      obtain ⟨rfl, he⟩ := (locate_absolute hplain hnames).1 hlocate
      split at h
      · next heq =>
        obtain ⟨rfl, _⟩ := Prod.mk.inj heq
        exact hremove e he (Except.ok.inj h).symm
      · cases h
      · cases h
    · next hdir =>
      -- there was nothing
      cases h
      rw [isFile_absolute hplain hnames] at hfile
      rw [isDir_absolute hplain hnames] at hdir
      obtain hnone | hsome | hsome := hplain.at?_cases (parent ++ [name])
      · refine ⟨hplain, fun q => ?_⟩
        split
        · next hprefix =>
          obtain ⟨rest, rfl⟩ := hprefix
          rw [at?, Entry.at?_append, Entry.at?_eq_none.1 hnone, Option.bind_none]
        · rfl
      · exact absurd hsome hdir
      · exact absurd hsome hfile

/-! ## Directories -/

/-- What it means that there is a directory afterwards, and that only it is new. -/
structure DirMade (s : Store) (names : List String) (s' : Store) : Prop where
  plain : s'.root.Plain
  view : ∀ q, s'.at? q = if q = names then some .dir else s.at? q
  before : s.at? names = none ∨ s.at? names = some .dir
  above : names = [] ∨ s.at? names.dropLast = some .dir

theorem dirMade_self (h : s.at? names = some .dir) : DirMade s names s where
  plain := hplain
  view := fun q => by
    split
    · next hq => rw [hq, h]
    · rfl
  before := .inr h
  above := by
    obtain rfl | ⟨front, name, rfl⟩ := List.eq_nil_or_concat' names
    · exact .inl rfl
    · obtain ⟨entries, hentries⟩ := Entry.at?_eq_dir.1 h
      rw [List.dropLast_concat]
      exact .inr (Entry.at?_eq_dir.2 (Entry.find?_dir_of_append hentries (List.cons_ne_nil _ _)))

theorem makeDir_ok (hnames : Forward names)
    (h : s.makeDir (.absolute names) = .ok s') : DirMade s names s' := by
  unfold makeDir at h
  obtain ⟨place, hplace, hput⟩ := ok_of_bind h
  obtain ⟨rfl, habove⟩ := (place_absolute hplain hnames).1 hplace
  split at hput
  · cases hput
  · next hnone =>
    cases hput
    obtain rfl | ⟨front, name, rfl⟩ := List.eq_nil_or_concat' place
    · rw [Entry.find?_nil] at hnone
      cases hnone
    · have hparent := habove.resolve_left (by simp)
      rw [List.dropLast_concat] at hparent
      have hplaceNone : s.at? (front ++ [name]) = none := Entry.at?_eq_none.2 hnone
      refine ⟨hplain.put hparent (hnames name (by simp)) (.dir .nil nofun nofun), fun q => ?_,
        .inl hplaceNone, habove⟩
      have hnot : s.at? (front ++ [name]) ≠ some .dir := by simp [hplaceNone]
      exact Entry.at?_put hplain hparent Entry.at?_emptyDir hnot q

theorem ensureDir_ok (hnames : Forward names)
    (h : s.ensureDir (.absolute names) = .ok s') : DirMade s names s' := by
  unfold ensureDir at h
  split at h
  · next s₁ hmake =>
    cases h
    exact makeDir_ok hplain hnames hmake
  · split at h
    · cases h
    · split at h
      · next hdir =>
        cases h
        exact dirMade_self hplain ((isDir_absolute hplain hnames).1 hdir)
      · cases h

/-- The directories on the way to a place are there afterwards, and only they are new. -/
structure DirsMade (s : Store) (names : List String) (s' : Store) : Prop where
  plain : s'.root.Plain
  view : ∀ q, s'.at? q = if q <+: names then some .dir else s.at? q
  before : ∀ q, q <+: names → s.at? q = none ∨ s.at? q = some .dir

omit hplain in
theorem DirsMade.root (h : DirsMade s names s') : s'.at? [] = some .dir := by
  rw [h.view, if_pos List.nil_prefix]

omit hplain in
/-- Making the directories above a place, and then the place itself. -/
theorem DirsMade.concat {s₁} (h : DirsMade s parent s₁)
    (h' : DirMade s₁ (parent ++ [name]) s') : DirsMade s (parent ++ [name]) s' where
  plain := h'.plain
  view := fun q => by
    rw [h'.view, h.view]
    simp only [List.prefix_concat_iff]
    by_cases hq : q = parent ++ [name] <;> simp [hq]
  before := fun q hq => by
    obtain rfl | hq := List.prefix_concat_iff.1 hq
    · have hbefore := h'.before
      rwa [h.view, if_neg not_concat_above] at hbefore
    · exact h.before q hq

theorem dirsMade_self (h : s.at? names = some .dir) : DirsMade s names s where
  plain := hplain
  view := fun q => by
    split
    · next hq => exact Entry.at?_dir_above h hq
    · rfl
  before := fun q hq => .inr (Entry.at?_dir_above h hq)

theorem DirMade.dirsMade (h : DirMade s names s') : DirsMade s names s' := by
  obtain rfl | ⟨front, name, rfl⟩ := List.eq_nil_or_concat' names
  · exact ⟨h.plain, fun q => by simp [h.view, List.prefix_nil],
      fun q hq => List.prefix_nil.1 hq ▸ h.before⟩
  · have habove := h.above.resolve_left (by simp)
    rw [List.dropLast_concat] at habove
    exact (dirsMade_self hplain habove).concat h

theorem makeDirsFrom_ok (depth : Nat) (hnames : Forward names)
    (h : makeDirsFrom depth s (.absolute names) = .ok s') : DirsMade s names s' := by
  induction depth generalizing names s' with
  | zero => exact (ensureDir_ok hplain hnames h).dirsMade hplain
  | succ depth ih =>
    rw [makeDirsFrom] at h
    split at h
    · next s₁ hmake =>
      cases h
      exact (makeDir_ok hplain hnames hmake).dirsMade hplain
    · obtain ⟨s₁, hparents, h⟩ := ok_of_bind h
      obtain rfl | ⟨front, name, rfl⟩ := List.eq_nil_or_concat' names
      · -- the root lies in itself
        have hroot := ih hnames hparents
        have hagain := ensureDir_ok hroot.plain hnames h
        exact ⟨hagain.plain, fun q => by rw [hagain.view, hroot.view]; grind,
          hroot.before⟩
      · have hparent : (Path.absolute (front ++ [name])).parent = .absolute front := by
          simp [Path.parent, Path.absolute]
        rw [hparent] at hparents
        have habove := ih (forward_append.1 hnames).1 hparents
        exact habove.concat (ensureDir_ok habove.plain hnames h)
    · split at h
      · next hdir =>
        cases h
        exact dirsMade_self hplain ((isDir_absolute hplain hnames).1 hdir)
      · cases h

theorem makeDirs_ok (hnames : Forward names)
    (h : s.makeDirs (.absolute names) = .ok s') : DirsMade s names s' :=
  makeDirsFrom_ok hplain _ hnames h

/-! ## Files -/

theorem readBytes_of_ok {content} (hnames : Forward names)
    (h : s.readBytes (.absolute names) = .ok content) :
    ∃ executable, s.at? names = some (.file content executable) := by
  unfold readBytes at h
  obtain ⟨⟨place, e⟩, hlocate, h⟩ := ok_of_bind h
  obtain ⟨_, he⟩ := (locate_absolute hplain hnames).1 hlocate
  split at h
  · next heq =>
    obtain ⟨_, rfl⟩ := Prod.mk.inj heq
    cases h
    exact ⟨_, Entry.at?_eq_file.2 he⟩
  · cases h

def textOf? (content : ByteArray) : Option (List Char) :=
  (String.fromUTF8? content).map fun text => Text.unifyLineEnds text.toList

theorem readText_of_ok {text} (hnames : Forward names)
    (h : s.readText (.absolute names) = .ok text) :
    ∃ content executable, s.at? names = some (.file content executable) ∧
      textOf? content = some text := by
  unfold readText at h
  obtain ⟨content, hbytes, h⟩ := ok_of_bind h
  obtain ⟨executable, hfile⟩ := readBytes_of_ok hplain hnames hbytes
  refine ⟨content, executable, hfile, ?_⟩
  split at h
  · next text' htext =>
    cases h
    rw [textOf?, htext, Option.map_some]
  · cases h

/-- What it means that there is a certain file afterwards, and that only it is new. -/
structure FileMade (s : Store) (names : List String) (content : ByteArray) (executable : Bool)
    (s' : Store) : Prop where
  plain : s'.root.Plain
  view : ∀ q, s'.at? q = if q = names then some (.file content executable) else s.at? q

theorem fileMade_put {content executable} (hnames : Forward names)
    (habove : names = [] ∨ s.at? names.dropLast = some .dir) (hnot : s.at? names ≠ some .dir)
    (hroot : s.at? [] = some .dir) :
    FileMade s names content executable (s.putAt names (.file content executable)) := by
  obtain rfl | ⟨front, name, rfl⟩ := List.eq_nil_or_concat' names
  · exact absurd hroot hnot
  · have hparent := habove.resolve_left (by simp)
    rw [List.dropLast_concat] at hparent
    exact ⟨hplain.put hparent (hnames name (by simp)) .file,
      Entry.at?_put hplain hparent Entry.at?_file hnot⟩

theorem writeText_ok {text} (hroot : s.at? [] = some .dir)
    (hnames : Forward names) (h : s.writeText (.absolute names) text = .ok s') :
    ∃ executable, FileMade s names text.toUTF8 executable s' ∧
      (s.at? names = none → executable = false) := by
  unfold writeText writeBytes at h
  obtain ⟨place, hplace, hput⟩ := ok_of_bind h
  obtain ⟨rfl, habove⟩ := (place_absolute hplain hnames).1 hplace
  split at hput
  · next executable hfile =>
    cases hput
    have hplaced : s.at? place = some (.file _ executable) := Entry.at?_eq_file.2 hfile
    exact ⟨executable, fileMade_put hplain hnames habove (by simp [hplaced]) hroot,
      by simp [hplaced]⟩
  · cases hput
  · next hnone =>
    cases hput
    have hfree : s.at? place = none := Entry.at?_eq_none.2 hnone
    exact ⟨false, fileMade_put hplain hnames habove (by simp [hfree]) hroot, fun _ => rfl⟩

theorem copy_ok {source : List String} (hroot : s.at? [] = some .dir)
    (hsource : Forward source) (hnames : Forward names)
    (h : s.copy (.absolute source) (.absolute names) = .ok s') :
    ∃ place content executable, s.at? source = some (.file content executable) ∧
      FileMade s place content executable s' ∧
      (place = names ∨ names <+: place ∧ s.at? names = some .dir) := by
  unfold copy at h
  -- where the file goes
  obtain ⟨place, hplace, hforward, hwhere⟩ : ∃ place,
      (if s.isDir (.absolute names) = true then
        (Path.absolute names).child (Path.absolute source).name else .absolute names)
          = .absolute place ∧ Forward place ∧
        (place = names ∨ names <+: place ∧ s.at? names = some .dir) := by
    split
    · next hdir =>
      exact ⟨names ++ [(Path.absolute source).name], rfl,
        forward_append.2 ⟨hnames, forward_single.2 (forward_name hsource)⟩,
        .inr ⟨List.prefix_append _ _, (isDir_absolute hplain hnames).1 hdir⟩⟩
    · exact ⟨names, rfl, hnames, .inl rfl⟩
  simp only [hplace] at h
  obtain ⟨_, h⟩ := ok_of_guard h nofun
  obtain ⟨⟨_, e⟩, hlocate, h⟩ := ok_of_bind h
  obtain ⟨_, he⟩ := (locate_absolute hplain hsource).1 hlocate
  split at h
  · next content executable heq =>
    obtain ⟨_, rfl⟩ := Prod.mk.inj heq
    obtain ⟨place', htarget, hput⟩ := ok_of_bind h
    obtain ⟨rfl, habove⟩ := (place_absolute hplain hforward).1 htarget
    obtain ⟨hnot, hput⟩ := ok_of_guard hput nofun
    cases hput
    refine ⟨place', content, executable, Entry.at?_eq_file.2 he,
      fileMade_put hplain hforward habove (fun hdir => hnot ?_) hroot, hwhere⟩
    obtain ⟨entries, hentries⟩ := Entry.at?_eq_dir.1 hdir
    simp [hentries, Entry.isDir]
  · cases h

end Store

end TypeStub.Files
