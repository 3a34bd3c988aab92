import TypeStub.Proofs.Generation.Outputs
/-!
# The work list of a run

The events of a run are found by a walk through the roots and, at each of them, through everything
that lies below it. Nothing changes on the way, so the walk returns, and what it returns is read off
the places that it comes by: a `Tour` is a list of roots with the places below each of them, and
each root with its places gives one section of the work list (`sectionOf`).

`events_isWorkList`: each file that is to be stubbed or copied has one event, behind that of its
root. `events_below_roots`: what is written lies at or below a root that was cleaned.
-/

namespace TypeStub.Generation

open TypeStub.Files TypeStub.WorkM Store

variable {tree : Entry} {input output x y : List String} {action : Action}

/-! ## What has an event -/

/-- What has an event besides the roots: a file that is taken up, and a directory below a root that
has the name of a marker. -/
inductive HasEvent (tree : Entry) (input below : List String) : Action → Prop
  | file {content executable action} :
    tree.at? (input ++ below) = some (.file content executable) →
    Takes tree (input ++ below) action → HasEvent tree input below action
  | directory {root} : tree.at? (input ++ below) = some .dir →
    (Path.absolute (input ++ below)).name = "py.typed" → IsRoot tree input (input ++ root) →
    input ++ root <+: input ++ below → HasEvent tree input below .copy

theorem hasEvent_iff (hs : Orderly tree input) :
    HasEvent tree input x action ↔ (∃ root, IsRoot tree input (input ++ root) ∧
      input ++ root <+: input ++ x ∧ tree.at? (input ++ x) ≠ none) ∧
      Takes tree (input ++ x) action := by
  constructor
  · intro h
    cases h with
    | @file content executable _ hfile htakes =>
      have hsource : IsSource tree input x := ⟨⟨content, executable, hfile⟩, action, htakes⟩
      obtain ⟨_, hroot, hbelow⟩ := hsource.exists_root
      obtain ⟨root, rfl⟩ := hroot.below
      exact ⟨⟨root, hroot, hbelow, by simp [hfile]⟩, htakes⟩
    | @directory root hdir hname hroot hbelow =>
      exact ⟨⟨root, hroot, hbelow, by simp [hdir]⟩, .copy (.inr hname)⟩
  · rintro ⟨⟨root, hroot, hbelow, hexists⟩, htakes⟩
    obtain hdir | ⟨content, executable, hfile⟩ := (hs.plain.at?_cases _).resolve_left hexists
    · obtain ⟨hpy, hpyi⟩ := hs.named _ (List.prefix_append _ _) hdir
      cases htakes with
      | stub hstub => exact absurd hstub.1 hpy
      | copy hcopy => exact .directory hdir (hcopy.resolve_left hpyi) hroot hbelow
    · exact .file hfile htakes

theorem Takes.unique {place action'} (h : Takes tree place action) (h' : Takes tree place action') :
    action = action' := by
  cases h with
  | stub hstub =>
    cases h' with
    | stub _ => rfl
    | copy hcopy => exact absurd hcopy (not_isCopied hstub.1)
  | copy hcopy =>
    cases h' with
    | stub hstub => exact absurd hcopy (not_isCopied hstub.1)
    | copy _ => rfl

/-! ## Tours -/

/-- A root, and everything at or below it. -/
structure Covers (tree : Entry) (input root : List String) (places : List (List String)) :
    Prop where
  distinct : places.Nodup
  mem : ∀ x, x ∈ places ↔ input ++ root <+: input ++ x ∧ tree.at? (input ++ x) ≠ none

/-- The roots in order, each with everything at or below it. -/
structure Tour (tree : Entry) (input : List String)
    (stops : List (List String × List (List String))) : Prop where
  sorted : stops.Pairwise fun a b => input ++ a.1 < input ++ b.1
  roots : ∀ root, (∃ stop ∈ stops, stop.1 = root) ↔ IsRoot tree input (input ++ root)
  covers : ∀ stop ∈ stops, Covers tree input stop.1 stop.2

namespace Tour

variable {stops : List (List String × List (List String))}

theorem mem_places (ht : Tour tree input stops) :
    x ∈ stops.flatMap (·.2) ↔ ∃ root, IsRoot tree input (input ++ root) ∧
      input ++ root <+: input ++ x ∧ tree.at? (input ++ x) ≠ none := by
  rw [List.mem_flatMap]
  constructor
  · rintro ⟨stop, hstop, hx⟩
    exact ⟨stop.1, (ht.roots _).1 ⟨stop, hstop, rfl⟩, ((ht.covers stop hstop).mem x).1 hx⟩
  · rintro ⟨root, hroot, hx⟩
    obtain ⟨stop, hstop, rfl⟩ := (ht.roots root).2 hroot
    exact ⟨stop, hstop, ((ht.covers stop hstop).mem x).2 hx⟩

/-- A tour comes by each place once: no place lies below two roots. -/
theorem nodup_places (ht : Tour tree input stops) : (stops.flatMap (·.2)).Nodup := by
  refine List.pairwise_flatMap.2 ⟨fun stop hstop => (ht.covers stop hstop).distinct, ?_⟩
  refine ht.sorted.imp_of_mem fun {a b} ha hb hlt x hxa y hxb heq => place_ne_of_lt hlt ?_
  subst heq
  have hroot : ∀ stop ∈ stops, IsRoot tree input (input ++ stop.1) := fun stop hstop =>
    (ht.roots _).1 ⟨stop, hstop, rfl⟩
  exact (hroot a ha).unique_above (hroot b hb) (((ht.covers a ha).mem x).1 hxa).1
    (((ht.covers b hb).mem x).1 hxb).1

end Tour

/-! ## Walking along a tour -/

section Walking

variable {s : Store} {w w' : Workspace} {done a : List Event} {e : Event} {root : List String}

def eventAt? (s : Store) (input output below : List String) : Option Event :=
  (fileAction? s (.absolute (input ++ below))).map fun action => eventOf input output action below

def sectionOf (s : Store) (input output root : List String) (places : List (List String)) :
    List Event :=
  eventOf input output .clean root :: places.filterMap (eventAt? s input output)

theorem keeps_self (hplain : s.root.Plain) : Keeps s.root input s :=
  ⟨hplain, fun _ _ => rfl⟩

theorem eventAt?_eq_some (hs : Orderly s.root input) (hexists : s.at? (input ++ x) ≠ none) :
    eventAt? s input output x = some e ↔
      ∃ action, Takes s.root (input ++ x) action ∧ eventOf input output action x = e := by
  rw [eventAt?, Option.map_eq_some_iff]
  refine exists_congr fun action => and_congr_left fun _ => ?_
  obtain ⟨found, hfound, htakes⟩ | ⟨hfound, hnone⟩ :=
    fileAction?_cases (keeps_self hs.plain) hs hexists
  · rw [hfound, Option.some.injEq]
    exact ⟨fun heq => heq ▸ htakes, fun h => htakes.unique h⟩
  · rw [hfound]
    exact ⟨fun h => (nomatch h), fun h => absurd ⟨action, h⟩ hnone⟩

/-! ### Handling events on the way -/

variable {handle : Event → WorkM Unit} {u : Unit}

def note (handle : Event → WorkM Unit) (done : List Event) (e : Event) : WorkM (List Event) := do
  handle e
  return done ++ [e]

def takeUp (handle : Event → WorkM Unit) (m : Mapping) : Visit (List Event) := fun done path => do
  let e ← m.event .copy path
  match fileAction? (← WorkM.files) path with
  | some action => note handle done { e with action }
  | none => pure done

def tend (handle : Event → WorkM Unit) (m : Mapping) : Visit (List Event) := fun done root => do
  let done ← note handle done (← m.event .clean root)
  foldPaths (takeUp handle m) done root

/-- Whatever is done with an event, the input stays as it was. -/
def Sparing (tree : Entry) (input output : List String) (handle : Event → WorkM Unit) : Prop :=
  ∀ ⦃action below w u w'⦄, tree.at? (input ++ below) ≠ none →
    (action = .clean ∨ Takes tree (input ++ below) action) → Keeps tree input w.store →
    Runs (handle (eventOf input output action below)) w u w' → Keeps tree input w'.store

theorem runs_note : Runs (note handle done e) w a w' ↔
    a = done ++ [e] ∧ ∃ u, Runs (handle e) w u w' := by
  simp only [note, runs_bind, runs_pure]
  constructor
  · rintro ⟨u, _, hhandle, rfl, rfl⟩
    exact ⟨rfl, u, hhandle⟩
  · rintro ⟨rfl, u, hhandle⟩
    exact ⟨u, w', hhandle, rfl, rfl⟩

/-- A place is taken up if something is to be done with it, and else passed over. -/
theorem takeUp_cases (hs : Orderly tree input) (hw : Keeps tree input w.store)
    (hexists : tree.at? (input ++ x) ≠ none)
    (h : Runs (takeUp handle (directories input output) done (.absolute (input ++ x))) w a w') :
    (a = done ∧ w' = w ∧ ¬ ∃ action, Takes tree (input ++ x) action) ∨
      ∃ action u, a = done ++ [eventOf input output action x] ∧
      Takes tree (input ++ x) action ∧
        Runs (handle (eventOf input output action x)) w u w' := by
  obtain ⟨e, w₁, hevent, h₁⟩ := runs_bind.1 h
  obtain ⟨rfl, rfl⟩ := (runs_event hs).1 hevent
  rw [runs_files_bind] at h₁
  obtain ⟨action, haction, htakes⟩ | ⟨haction, hnone⟩ := fileAction?_cases hw hs hexists
  · rw [haction] at h₁
    obtain ⟨rfl, u, hhandle⟩ := runs_note.1 h₁
    exact .inr ⟨action, u, rfl, htakes, hhandle⟩
  · rw [haction] at h₁
    obtain ⟨rfl, rfl⟩ := runs_pure.1 h₁
    exact .inl ⟨rfl, rfl, hnone⟩

theorem tend_cases (hs : Orderly tree input)
    (h : Runs (tend handle (directories input output) done (.absolute (input ++ root))) w a w') :
    ∃ u w₁, Runs (handle (eventOf input output .clean root)) w u w₁ ∧
      Runs (foldPaths (takeUp handle (directories input output))
        (done ++ [eventOf input output .clean root]) (.absolute (input ++ root))) w₁ a w' := by
  obtain ⟨e, w₁, hevent, h₁⟩ := runs_bind.1 h
  obtain ⟨rfl, rfl⟩ := (runs_event hs).1 hevent
  obtain ⟨_, w₂, hnote, hpaths⟩ := runs_bind.1 h₁
  obtain ⟨rfl, u, hclean⟩ := runs_note.1 hnote
  exact ⟨u, w₂, hclean, hpaths⟩

theorem keptBy_takeUp (hs : Orderly tree input) (hspare : Sparing tree input output handle) :
    KeptBy tree input (takeUp handle (directories input output)) := by
  rintro done _ w a w' ⟨x, rfl⟩ hexists hw h
  obtain ⟨-, rfl, -⟩ | ⟨action, u, -, htakes, hhandle⟩ := takeUp_cases hs hw hexists h
  · exact hw
  · exact hspare hexists (.inr htakes) hw hhandle

theorem keptBy_tend (hs : Orderly tree input) (hspare : Sparing tree input output handle) :
    KeptBy tree input (tend handle (directories input output)) := by
  rintro done _ w a w' ⟨root, rfl⟩ hexists hw h
  obtain ⟨u, w₁, hclean, hpaths⟩ := tend_cases hs h
  have hw₁ := hspare hexists (.inl rfl) hw hclean
  exact (foldPaths_visits (keptBy_takeUp hs hspare) (List.prefix_append _ _) hexists hw₁ hpaths).1

theorem exists_map_append {places} (h : ∀ q ∈ places, input <+: q) :
    ∃ xs : List (List String), places = xs.map (input ++ ·) := by
  induction places with
  | nil => exact ⟨[], rfl⟩
  | cons place rest ih =>
    obtain ⟨⟨x, rfl⟩, hrest⟩ := List.forall_mem_cons.1 h
    obtain ⟨xs, rfl⟩ := ih hrest
    exact ⟨x :: xs, rfl⟩

theorem visitAll_takeUp (hs : Orderly s.root input) (hspare : Sparing s.root input output handle)
    {places : List (List String)} (hexists : ∀ x ∈ places, s.at? (input ++ x) ≠ none)
    (hw : Keeps s.root input w.store)
    (h : Runs (visitAll (takeUp handle (directories input output)) done
      (places.map (input ++ ·))) w a w') :
    a = done ++ places.filterMap (eventAt? s input output) := by
  induction places generalizing done w with
  | nil => simpa using (runs_visitAll_nil.1 h).1
  | cons x rest ih =>
    obtain ⟨done₁, w₁, hfirst, hrest⟩ := runs_visitAll_cons.1 h
    obtain ⟨hx, hexists⟩ := List.forall_mem_cons.1 hexists
    rw [ih hexists (keptBy_takeUp hs hspare (List.prefix_append _ _) hx hw hfirst) hrest]
    have hevent : ∀ {e}, eventAt? s input output x = some e ↔ _ := eventAt?_eq_some hs hx
    obtain ⟨rfl, -, hnone⟩ | ⟨action, -, rfl, htakes, -⟩ := takeUp_cases hs hw hx hfirst
    · have hnot : eventAt? s input output x = none :=
        Option.eq_none_iff_forall_ne_some.2 fun e he =>
          hnone ((hevent.1 he).imp fun _ => And.left)
      rw [List.filterMap_cons_none hnot]
    · rw [List.filterMap_cons_some (hevent.2 ⟨action, htakes, rfl⟩)]
      simp

theorem tend_section (hs : Orderly s.root input) (hspare : Sparing s.root input output handle)
    (hexists : s.at? (input ++ root) ≠ none) (hw : Keeps s.root input w.store)
    (h : Runs (tend handle (directories input output) done (.absolute (input ++ root))) w a w') :
    ∃ places, Covers s.root input root places ∧
      a = done ++ sectionOf s input output root places := by
  obtain ⟨u, w₁, hclean, hpaths⟩ := tend_cases hs h
  have hw₁ := hspare hexists (.inl rfl) hw hclean
  obtain ⟨-, visited, hdistinct, hvisited, hruns⟩ := foldPaths_visits (keptBy_takeUp hs hspare)
    (List.prefix_append _ _) hexists hw₁ hpaths
  obtain ⟨places, rfl⟩ : ∃ places : List (List String), visited = places.map (input ++ ·) :=
    exists_map_append fun q hq => (List.prefix_append _ _).trans ((hvisited q).1 hq).1
  have hmem : ∀ x, x ∈ places ↔ input ++ root <+: input ++ x ∧
      s.root.at? (input ++ x) ≠ none := by
    intro x
    refine Iff.trans ?_ (hvisited (input ++ x))
    simp
  rw [visitAll_takeUp hs hspare (fun x hx => ((hmem x).1 hx).2) hw₁ hruns]
  refine ⟨places, ⟨?_, hmem⟩, by simp [sectionOf]⟩
  exact (List.pairwise_map.1 hdistinct).imp fun hne heq => hne (congrArg (input ++ ·) heq)

theorem visitAll_tend (hs : Orderly s.root input) (hspare : Sparing s.root input output handle)
    {roots} (hexists : ∀ root ∈ roots, s.at? (input ++ root) ≠ none)
    (hw : Keeps s.root input w.store)
    (h : Runs (visitAll (tend handle (directories input output)) done
      (roots.map (input ++ ·))) w a w') :
    ∃ stops : List (List String × List (List String)), stops.map (·.1) = roots ∧
      (∀ stop ∈ stops, Covers s.root input stop.1 stop.2) ∧
      a = done ++ stops.flatMap fun stop => sectionOf s input output stop.1 stop.2 := by
  induction roots generalizing done w with
  | nil =>
    obtain ⟨rfl, -⟩ := runs_visitAll_nil.1 h
    exact ⟨[], rfl, by simp, by simp⟩
  | cons root rest ih =>
    obtain ⟨done₁, w₁, hfirst, hrest⟩ := runs_visitAll_cons.1 h
    obtain ⟨hroot, hexists⟩ := List.forall_mem_cons.1 hexists
    obtain ⟨places, hplaces, rfl⟩ := tend_section hs hspare hroot hw hfirst
    have hw₁ := keptBy_tend hs hspare (List.prefix_append _ _) hroot hw hfirst
    obtain ⟨stops, rfl, hstops, rfl⟩ := ih hexists hw₁ hrest
    exact ⟨(root, places) :: stops, rfl, List.forall_mem_cons.2 ⟨hplaces, hstops⟩, by simp⟩

theorem forEvents_tour (hs : Orderly w.store.root input)
    (hspare : Sparing w.store.root input output handle)
    (h : Runs (forEvents (directories input output) handle) w a w') :
    ∃ stops, Tour w.store.root input stops ∧
      a = stops.flatMap fun stop => sectionOf w.store input output stop.1 stop.2 := by
  obtain ⟨fuel, w₁, hdepth, hroots⟩ := runs_bind.1 h
  obtain ⟨rfl, rfl⟩ := runs_walkDepth.1 hdepth
  have hexists : w₁.store.root.at? input ≠ none := by simp [hs.isDir]
  have hw : Keeps w₁.store.root input w₁.store := keeps_self hs.plain
  obtain ⟨-, visited, hsorted, hvisited, hruns⟩ := foldRoots_visits (keptBy_tend hs hspare)
    (List.prefix_refl _) hexists (fun q hq => hw.length_lt (List.prefix_refl _) hq) hw hroots
  obtain ⟨roots, rfl⟩ : ∃ roots : List (List String), visited = roots.map (input ++ ·) :=
    exists_map_append fun q hq => ((hvisited q).1 hq).below
  have hmem : ∀ root, root ∈ roots ↔ IsRoot w₁.store.root input (input ++ root) := by
    intro root
    rw [← hvisited]
    simp
  obtain ⟨stops, rfl, hcovers, rfl⟩ := visitAll_tend hs hspare
    (fun root hroot => ((hmem root).1 hroot).isModuleRoot.exists) hw hruns
  refine ⟨stops, ⟨?_, fun root => ?_, hcovers⟩, rfl⟩
  · rw [List.map_map, List.pairwise_map] at hsorted
    exact hsorted
  · rw [← hmem, List.mem_map]

/-! ### What the walk keeps -/

/-- The events have been handled in this order. -/
inductive Handled (handle : Event → WorkM Unit) (w : Workspace) :
    List Event → Workspace → Prop
  | nil : Handled handle w [] w
  | snoc {done e v u v'} : Handled handle w done v → Runs (handle e) v u v' →
    Handled handle w (done ++ [e]) v'

section Keeping

variable {m : Mapping} {I : List Event → Workspace → Prop} {E : Workspace → Prop}
  {here : List String → Prop}

theorem ends_event {Q : Event → Workspace → Prop} {p}
    (hsome : ∀ e, m.event? action p = some e → Q e w)
    (hnone : m.event? action p = none → E w) : Ends Q E (m.event action p) w := by
  unfold Mapping.event
  split
  · next e he => exact ends_pure (hsome e he)
  · next he => exact ends_throw (hnone he)

/-- What is kept whenever an event is handled is kept by the whole walk, or it fails in a certain
way. -/
theorem forEvents_ends (hleads : Leads I here)
    (hevent : ∀ {action done place v}, here place → I done v → Ends (fun e v => I done v ∧
      ∀ action, Ends I E (note handle done { e with action }) v) E
      (m.event action (.absolute place)) v)
    (hthere : ∀ {done place v}, here place → I done v →
      v.store.pathExists (.absolute place) = true ∨ E v)
    (hinput : m.input = .absolute input) (hhere : here input) (h : I [] w) :
    Ends I E (forEvents m handle) w := by
  have htake : Preserves I E here (takeUp handle m) := by
    intro done place v hplace h
    refine (hevent hplace h).bind fun e v₁ h₁ => ends_files_bind ?_
    split
    · exact h₁.2 _
    · exact ends_pure h₁.1
  refine ends_walkDepth_bind fun depth => ?_
  rw [hinput]
  refine foldRoots_ends hleads (fun done place v hplace h => ?_) depth [] input w hhere h
  refine (hevent hplace h).bind fun e v₁ h₁ => (h₁.2 e.action).bind fun done₁ v₂ h₂ =>
    ?_
  exact foldPaths_ends hleads htake hplace h₂ (hthere hplace h₂)

theorem forEvents_handled (hinput : m.input = .absolute input)
    (h : Runs (forEvents m handle) w a w') : Handled handle w a w' := by
  have hleads : Leads (Handled handle w) fun _ => True := fun _ _ _ _ _ _ _ _ _ => trivial
  have hend : Ends (Handled handle w) (fun _ => True) (forEvents m handle) w := by
    refine forEvents_ends hleads (fun _ h =>
      ends_event (fun e _ => ⟨h, fun action => ?_⟩) fun _ => trivial)
      (fun _ _ => .inr trivial) hinput trivial .nil
    exact ends_runs.bind fun _ _ hhandle => ends_pure (h.snoc hhandle)
  exact hend.of_runs h

theorem forEvents_looks (hs : Orderly w.store.root input) (output : List String) :
    Ends (fun _ v => v = w) (fun _ => False)
      (forEvents (directories input output) fun _ => pure ()) w := by
  have hleads : Leads (fun (_ : List Event) v => v = w) fun q =>
    input <+: q ∧ w.store.at? q ≠ none := by
    rintro _ _ place names rfl ⟨hbelow, hexists⟩ hlist name hname
    exact ⟨hbelow.trans (List.prefix_append _ _),
      exists_of_list hs.plain (hs.plain.forward hexists) hlist hname⟩
  refine forEvents_ends hleads ?_ ?_ rfl ⟨List.prefix_refl _, by simp [Store.at?, hs.isDir]⟩ rfl
  · rintro action done _ _ ⟨⟨x, rfl⟩, -⟩ rfl
    exact ends_of_runs ((runs_event hs).2 ⟨rfl, rfl⟩) ⟨rfl, fun _ => ends_pure rfl⟩
  · rintro done place _ ⟨hbelow, hexists⟩ rfl
    exact .inl (((keeps_self hs.plain).pathExists hbelow (hs.plain.forward hexists)).2 hexists)

end Keeping

theorem sparing_pure : Sparing tree input output fun _ => pure () := by
  intro action below w u w' _ _ hw h
  obtain ⟨-, rfl⟩ := runs_pure.1 h
  exact hw

/-- **The events are found along a tour**, and nothing changes meanwhile. -/
theorem runs_forEvents (hs : Orderly w.store.root input) (output : List String) :
    ∃ stops, Tour w.store.root input stops ∧
      Runs (forEvents (directories input output) fun _ => pure ()) w
        (stops.flatMap fun stop => sectionOf w.store input output stop.1 stop.2) w := by
  obtain ⟨events, _, hruns, rfl⟩ := (forEvents_looks hs output).returns
  obtain ⟨stops, htour, rfl⟩ := forEvents_tour hs sparing_pure hruns
  exact ⟨stops, htour, hruns⟩

end Walking

/-! ## Work lists -/

/-- A list of events is the work at an input. -/
structure IsWorkList (tree : Entry) (input output : List String) (events : List Event) : Prop where
  /-- What is to be stubbed or copied has one event. -/
  once : ∀ x action, HasEvent tree input x action →
    events.filter (fun e => e.action ≠ .clean ∧ e.input = .absolute (input ++ x))
      = [eventOf input output action x]
  /-- Nothing else is stubbed or copied. -/
  only : ∀ e ∈ events, e.action ≠ .clean →
    ∃ x action, HasEvent tree input x action ∧ e = eventOf input output action x
  /-- Each root has one event. -/
  roots : ∃ roots : List (List String), roots.Nodup ∧
    (∀ x, x ∈ roots ↔ IsRoot tree input (input ++ x)) ∧
    events.filter (fun e => e.action = .clean) = roots.map (eventOf input output .clean)
  /-- What lies in a root comes after the event of this root and before that of the next one. -/
  placed : ∀ x action front back, action ≠ .clean →
    events = front ++ eventOf input output action x :: back →
    ∃ root before between, IsRoot tree input (input ++ root) ∧ input ++ root <+: input ++ x ∧
      (∀ other, IsRoot tree input (input ++ other) → input ++ other <+: input ++ x →
      other = root) ∧ front = before ++ eventOf input output .clean root :: between ∧
      ∀ e ∈ between, e.action ≠ .clean
  /-- No two outputs are the same. -/
  distinct : ((events.filter (fun e => e.action ≠ .clean)).map (·.output)).Nodup

@[simp] theorem eventOf_action : (eventOf input output action x).action = action := rfl

theorem eventOf_inj {action'} :
    eventOf input output action x = eventOf input output action' y ↔
    action = action' ∧ x = y := by
  refine ⟨fun h => ⟨congrArg (·.action) h, ?_⟩,
    fun ⟨haction, hx⟩ => by rw [haction, hx]⟩
  exact List.append_cancel_left (congrArg (·.input.names) h)

theorem IsWorkList.mem_clean {events e} (h : IsWorkList tree input output events) :
    e ∈ events ∧ e.action = .clean ↔
      ∃ root, IsRoot tree input (input ++ root) ∧ eventOf input output .clean root = e := by
  obtain ⟨roots, -, hroots, hfilter⟩ := h.roots
  have hmem : e ∈ events.filter _ ↔ e ∈ _ := iff_of_eq (congrArg (e ∈ ·) hfilter)
  simpa [hroots] using hmem

section Sections

variable {s : Store} {e : Event} {stops : List (List String × List (List String))}

theorem eventAt?_cases (h : eventAt? s input output x = some e) :
    e.action ≠ .clean ∧ e = eventOf input output e.action x := by
  obtain ⟨action, haction, rfl⟩ := Option.map_eq_some_iff.1 h
  refine ⟨?_, rfl⟩
  unfold fileAction? at haction
  split at haction
  · cases haction
    simp [eventOf]
  · split at haction
    · cases haction
      simp [eventOf]
    · cases haction

theorem action_ne_of_mem {places} (he : e ∈ List.filterMap (eventAt? s input output) places) :
    e.action ≠ .clean := by
  obtain ⟨x, _, hx⟩ := List.mem_filterMap.1 he
  exact (eventAt?_cases hx).1

theorem filter_sections : (stops.flatMap fun stop => sectionOf s input output stop.1 stop.2).filter
    (fun e => e.action ≠ .clean) = (stops.flatMap (·.2)).filterMap
    (eventAt? s input output) := by
  induction stops with
  | nil => rfl
  | cons stop rest ih =>
    rw [List.flatMap_cons, List.flatMap_cons, List.filter_append, ih, sectionOf,
      List.filter_cons_of_neg (by simp), List.filterMap_append,
      List.filter_eq_self.2 fun e he => decide_eq_true (action_ne_of_mem he)]

theorem filter_clean_sections :
    (stops.flatMap fun stop => sectionOf s input output stop.1 stop.2).filter
      (fun e => e.action = .clean) = (stops.map (·.1)).map (eventOf input output .clean) := by
  induction stops with
  | nil => rfl
  | cons stop rest ih =>
    rw [List.flatMap_cons, List.filter_append, ih, sectionOf, List.filter_cons_of_pos (by simp),
      List.filter_eq_nil_iff.2 fun e he => by simpa using action_ne_of_mem he]
    rfl

theorem Tour.clean_sorted (ht : Tour s.root input stops) :
    (stops.flatMap fun stop => sectionOf s input output stop.1 stop.2).Pairwise fun e e' =>
      e.action = .clean → e'.action = .clean → e.input.names < e'.input.names := by
  have hsorted : ((stops.map (·.1)).map (eventOf input output .clean)).Pairwise
      fun e e' => e.input.names < e'.input.names :=
    List.pairwise_map.2 (List.pairwise_map.2 ht.sorted)
  rw [← @filter_clean_sections _ _ s, List.pairwise_filter] at hsorted
  simpa using hsorted

/-- An event that is none of a root stands behind the beginning of its section. -/
theorem split_sections {front back} (he : e.action ≠ .clean)
    (h : (stops.flatMap fun stop => sectionOf s input output stop.1 stop.2) = front ++ e :: back) :
    ∃ stop ∈ stops, ∃ before between,
    (∃ x ∈ stop.2, eventAt? s input output x = some e) ∧
      front = before ++ eventOf input output .clean stop.1 :: between ∧
      ∀ e' ∈ between, e'.action ≠ .clean := by
  induction stops generalizing front with
  | nil => simp at h
  | cons stop rest ih =>
    rw [List.flatMap_cons, List.append_eq_append_iff] at h
    obtain ⟨mid, rfl, hrest⟩ | ⟨mid, hsection, hback⟩ := h
    · -- the event is in a later section
      obtain ⟨stop', hstop', before, between, hevent, rfl, hbetween⟩ := ih hrest
      exact ⟨stop', List.mem_cons_of_mem _ hstop', _, between, hevent,
        (List.append_assoc _ _ _).symm, hbetween⟩
    · cases mid with
      | nil =>
        obtain ⟨_, _, _, _, _, hfront, _⟩ := @ih [] hback.symm
        simp at hfront
      | cons first others =>
        obtain ⟨rfl, -⟩ := List.cons.inj hback
        cases front with
        | nil =>
          obtain ⟨rfl, -⟩ := List.cons.inj hsection
          exact absurd rfl he
        | cons head between =>
          obtain ⟨rfl, hplaces⟩ := List.cons.inj hsection
          have hmem :
            ∀ e' ∈ between ++ e :: others, e' ∈ stop.2.filterMap (eventAt? s input output) :=
            fun e' he' => hplaces ▸ he'
          exact ⟨stop, List.mem_cons_self, [], between, List.mem_filterMap.1 (hmem e (by simp)),
            rfl, fun e' he' => action_ne_of_mem (hmem e' (List.mem_append_left _ he'))⟩

/-- If the elements of a list give different things, one of these comes from one of them. -/
theorem filter_filterMap_eq_singleton {α β : Type} {places : List α} {f : α → Option β}
    {p : β → Bool} {place b} (hdistinct : places.Nodup) (hplace : place ∈ places)
    (hb : f place = some b) (hp : p b = true)
    (hother : ∀ q b', f q = some b' → p b' = true → q = place) :
    (places.filterMap f).filter p = [b] := by
  obtain ⟨front, back, rfl⟩ := List.append_of_mem hplace
  have hrest : ∀ l : List α, place ∉ l → (l.filterMap f).filter p = [] := by
    intro l hl
    refine List.filter_eq_nil_iff.2 fun b' hb' hpb' => hl ?_
    obtain ⟨q, hq, hqb⟩ := List.mem_filterMap.1 hb'
    rwa [← hother q b' hqb hpb']
  have hfront : place ∉ front := fun h =>
    (List.nodup_append.1 hdistinct).2.2 place h place List.mem_cons_self rfl
  have hback : place ∉ back := (List.nodup_cons.1 (List.nodup_append.1 hdistinct).2.1).1
  rw [List.filterMap_append, List.filter_append, List.filterMap_cons_some hb,
    List.filter_cons_of_pos hp, hrest front hfront, hrest back hback]
  rfl

theorem Tour.isWorkList (hs : Orderly s.root input) (ht : Tour s.root input stops) :
    IsWorkList s.root input output
      (stops.flatMap fun stop => sectionOf s input output stop.1 stop.2) := by
  have hevent : ∀ {x e}, x ∈ stops.flatMap (·.2) → (eventAt? s input output x = some e ↔
      ∃ action, HasEvent s.root input x action ∧ eventOf input output action x = e) := by
    intro x e hx
    rw [ht.mem_places] at hx
    obtain ⟨_, _, _, hexists⟩ := id hx
    simp only [eventAt?_eq_some hs hexists, hasEvent_iff hs, hx, true_and]
  refine ⟨?_, ?_, ?_, ?_, ?_⟩
  · -- each place is on the tour once, and events for different places have different inputs
    intro x action hx
    have hplace : x ∈ stops.flatMap (·.2) := ht.mem_places.2 ((hasEvent_iff hs).1 hx).1
    have hinput : ∀ q e, eventAt? s input output q = some e →
        decide (e.input = .absolute (input ++ x)) = true → q = x := by
      intro q e he heq
      rw [(eventAt?_cases he).2, decide_eq_true_eq] at heq
      exact List.append_cancel_left (congrArg Path.names heq)
    have hsingle := filter_filterMap_eq_singleton ht.nodup_places hplace
      ((hevent hplace).2 ⟨action, hx, rfl⟩) (decide_eq_true rfl) hinput
    rw [← filter_sections, List.filter_filter] at hsingle
    simpa [Bool.and_comm] using hsingle
  · intro e he haction
    have hmem : e ∈ (stops.flatMap (·.2)).filterMap (eventAt? s input output) := by
      rw [← filter_sections, List.mem_filter]
      exact ⟨he, by simpa using haction⟩
    obtain ⟨x, hx, hxe⟩ := List.mem_filterMap.1 hmem
    obtain ⟨action, hhas, rfl⟩ := (hevent hx).1 hxe
    exact ⟨x, action, hhas, rfl⟩
  · refine ⟨stops.map (·.1), ?_, fun root => ?_, filter_clean_sections⟩
    · exact List.pairwise_map.2 (ht.sorted.imp fun hlt heq =>
        place_ne_of_lt hlt (congrArg (input ++ ·) heq))
    · rw [← ht.roots, List.mem_map]
  · intro x action front back haction hsplit
    obtain ⟨stop, hstop, before, between, ⟨y, hy, hye⟩, hfront, hbetween⟩ :=
      split_sections haction hsplit
    obtain rfl : x = y :=
      List.append_cancel_left (congrArg (·.input.names) (eventAt?_cases hye).2)
    have hroot : IsRoot s.root input (input ++ stop.1) := (ht.roots _).1 ⟨stop, hstop, rfl⟩
    have hbelow := (((ht.covers stop hstop).mem x).1 hy).1
    refine ⟨stop.1, before, between, hroot, hbelow, fun other hother hx => ?_, hfront, hbetween⟩
    exact List.append_cancel_left (hother.unique_above hroot hx hbelow)
  · rw [filter_sections, List.Nodup, List.pairwise_map, List.pairwise_filterMap]
    refine ht.nodup_places.imp_of_mem fun {x y} hx hy hne e he e' he' hout => hne ?_
    obtain ⟨action, hhas, rfl⟩ := (hevent hx).1 he
    obtain ⟨action', hhas', rfl⟩ := (hevent hy).1 he'
    obtain ⟨⟨_, _, _, hxthere⟩, htakes⟩ := (hasEvent_iff hs).1 hhas
    obtain ⟨⟨_, _, _, hythere⟩, htakes'⟩ := (hasEvent_iff hs).1 hhas'
    exact htakes.eq_of_outBelow_eq htakes' hxthere hythere
      (List.append_cancel_left (congrArg Path.names hout))

end Sections

/-! ## Finding the work -/

variable {w : Workspace}

theorem isFile_resolve_of_dir {path : Path} (hplain : w.store.root.Plain)
    (hdir : w.store.at? (w.store.resolve path).names = some .dir) :
    w.store.isFile (w.store.resolve path) = false := by
  have hforward := hplain.forward (by rw [show w.store.root.at? _ = some .dir from hdir]; simp)
  rw [← Bool.not_eq_true]
  change ¬ w.store.isFile (.absolute (w.store.resolve path).names) = true
  rw [isFile_absolute hplain hforward, hdir]
  simp

theorem runs_mapping_of_isDir {inputPath} (outputPath : Path) (hplain : w.store.root.Plain)
    (hdir : w.store.isDir inputPath = true) : Runs (Mapping.ofPaths inputPath outputPath) w
      (directories (w.store.resolve inputPath).names (w.store.resolve outputPath).names) w := by
  have hnotFile := isFile_resolve_of_dir hplain (at?_resolve hplain hdir)
  have hexists : w.store.pathExists inputPath = true := by
    unfold Store.isDir at hdir
    cases hentry : w.store.entry? inputPath with
    | none => simp [hentry] at hdir
    | some e => simp [Store.pathExists, hentry]
  rw [Mapping.ofPaths, runs_files_bind, hexists]
  simp only [Bool.not_true, Bool.false_eq_true, if_false, hnotFile, Bool.false_and, runs_pure,
    and_true]
  rfl

/-- A list of work from paths is found by one walk over what they map. -/
theorem runs_events_of {inputPath outputPath : Path} {mapping : Mapping} {events : List Event}
    (hmapping : Runs (Mapping.ofPaths inputPath outputPath) w mapping w)
    (hruns : Runs (forEvents mapping fun _ => pure ()) w events w) :
    Runs (WorkList.ofPaths inputPath outputPath >>= WorkList.events) w
      (events, ⟨mapping, some events⟩) w := by
  have hpaths : Runs (WorkList.ofPaths inputPath outputPath) w ⟨mapping, none⟩ w :=
    runs_bind.2 ⟨_, w, hmapping, runs_pure.2 ⟨rfl, rfl⟩⟩
  have hevents : Runs (WorkList.events ⟨mapping, none⟩) w (events, ⟨mapping, some events⟩) w :=
    runs_bind.2 ⟨_, w, hruns, runs_pure.2 ⟨rfl, rfl⟩⟩
  exact runs_bind.2 ⟨_, w, hpaths, hevents⟩

/-- The work is found, and nothing changes meanwhile. -/
theorem runs_events {inputPath : Path} (outputPath : Path) (hplain : w.store.root.Plain)
    (hdir : w.store.isDir inputPath = true)
    (hs : Orderly w.store.root (w.store.resolve inputPath).names) :
    ∃ events work,
      Runs (WorkList.ofPaths inputPath outputPath >>= WorkList.events) w (events, work) w ∧
      IsWorkList w.store.root (w.store.resolve inputPath).names (w.store.resolve outputPath).names
        events := by
  obtain ⟨stops, htour, hruns⟩ := runs_forEvents hs (w.store.resolve outputPath).names
  have hmapping := runs_mapping_of_isDir outputPath hplain hdir
  exact ⟨_, _, runs_events_of hmapping hruns, htour.isWorkList hs⟩

/-- **Work lists are complete, and nothing in them is superfluous or out of place.** The tree has no
symbolic links, and no directory at or below the input has the name of a module. -/
theorem events_isWorkList {inputPath : Path} (outputPath : Path) (hplain : w.store.root.Plain)
    (hdir : w.store.isDir inputPath = true)
    (hnamed : NoModuleDir w.store.root (w.store.resolve inputPath).names) :
    ∃ events work,
      Runs (WorkList.ofPaths inputPath outputPath >>= WorkList.events) w (events, work) w ∧
      IsWorkList w.store.root (w.store.resolve inputPath).names (w.store.resolve outputPath).names
        events :=
  runs_events outputPath hplain hdir ⟨hplain, at?_resolve hplain hdir, hnamed⟩

/-- What an event may do, behind those that stand in front of it: its input is a file, or a
directory that has the name of a marker, and its output lies at or below that of the last root. -/
def BelowRoot (tree : Entry) (front : List Event) (e : Event) : Prop :=
  ((∃ content executable, tree.at? e.input.names = some (.file content executable)) ∨
    tree.at? e.input.names = some .dir ∧ e.input.name = "py.typed") ∧
  ∃ before root between, front = before ++ root :: between ∧ root.action = .clean ∧
    (∀ e' ∈ between, e'.action ≠ .clean) ∧ root.output.names <+: e.output.names

theorem runs_mapping_of_isFile {inputPath : Path} (outputPath : Path)
    (hexists : w.store.pathExists inputPath = true)
    (hfile : w.store.isFile (w.store.resolve inputPath) = true) :
    ∃ out, Runs (Mapping.ofPaths inputPath outputPath) w
      ⟨w.store.resolve inputPath, out, true⟩ w := by
  rw [Mapping.ofPaths]
  simp only [runs_files_bind, hexists, hfile, Bool.not_true, Bool.false_eq_true, if_false,
    Bool.true_and]
  split
  · split
    · exact ⟨_, runs_pure.2 ⟨rfl, rfl⟩⟩
    · next hnone =>
      split at hnone
      · next hpy =>
        cases hnone.symm.trans (withSuffix?_absolute (w.store.resolve outputPath).names
          (beq_iff_eq.1 hpy))
      · cases hnone
  · exact ⟨_, runs_pure.2 ⟨rfl, rfl⟩⟩

/-- The work on a single file: its output is cleaned, and then it is stubbed or copied, if at all.
-/
theorem runs_forEvents_single {input : Path} (out : Path)
    (hexists : w.store.pathExists input = true)
    (hfile : w.store.isFile input = true) (hdir : w.store.isDir input = false)
    (hlist : ∃ fault, w.store.list input = .error fault) :
    let e action : Event := ⟨action, input, input.name, out, out.name⟩
    ∃ events, Runs (forEvents ⟨input, out, true⟩ fun _ => pure ()) w events w ∧
      ∀ front e' back, events = front ++ e' :: back → e'.action ≠ .clean →
        front = [e .clean] ∧ ∃ action, e' = e action := by
  intro e
  have hevent :
      ∀ action, (⟨input, out, true⟩ : Mapping).event action input = pure (e action) := by
    intro action
    have hself := Text.dropPrefix?_self input.names []
    rw [List.append_nil] at hself
    simp [Mapping.event, Mapping.event?, Path.relativeTo?, hself, Path.join, Path.isAbsolute, e]
  have htree : ∀ fuel (done : List Event) visit,
      Runs (foldTree visit fuel done input) w done w := by
    rintro (_ | fuel) done visit <;> rw [foldTree]
    · exact runs_pure.2 ⟨rfl, rfl⟩
    · obtain ⟨fault, hfault⟩ := hlist
      simp only [runs_get_bind, hfault]
      exact runs_pure.2 ⟨rfl, rfl⟩
  rw [forEvents, foldEvents]
  cases hroot : isModuleRoot w.store input with
  | false =>
    refine ⟨[], ?_, by simp⟩
    rw [walkDepth]
    simp only [bind_assoc, pure_bind, runs_files_bind]
    unfold foldRoots
    simp [runs_files_bind, hroot, hdir]
  | true =>
    refine ⟨e .clean :: ((fileAction? w.store input).map e).toList, ?_, ?_⟩
    · rw [walkDepth]
      simp only [bind_assoc, pure_bind, runs_files_bind]
      unfold foldRoots
      simp only [runs_files_bind, hroot, if_true, hevent, pure_bind, foldModule, foldPaths, hexists,
        walkDepth, bind_assoc]
      simp only [Bool.not_true, Bool.false_eq_true, if_false, runs_files_bind, hfile, if_true]
      cases fileAction? w.store input with
      | none | some =>
        simp only [pure_bind, runs_files_bind]
        exact htree _ _ _
    · rintro (_ | ⟨_, front⟩) e' back hsplit hne
      · cases (List.cons.inj hsplit).1
        exact absurd rfl hne
      · obtain ⟨rfl, hmore⟩ := List.cons.inj hsplit
        cases hfound : fileAction? w.store input with
        | none => simp [hfound] at hmore
        | some action =>
          rw [hfound] at hmore
          obtain ⟨rfl, heq⟩ | ⟨_, -, hmore⟩ := List.cons_eq_append_iff.1 hmore
          · exact ⟨rfl, action, (List.cons.inj heq).1⟩
          · simp at hmore

theorem events_of_file {inputPath : Path} (outputPath : Path) (hplain : w.store.root.Plain)
    {content executable} (hfile : w.store.entry? inputPath = some (.file content executable)) :
    ∃ events work,
      Runs (WorkList.ofPaths inputPath outputPath >>= WorkList.events) w (events, work) w ∧
      ∀ front e back, events = front ++ e :: back → e.action ≠ .clean →
        BelowRoot w.store.root front e := by
  have hfound := find?_resolve hplain hfile
  have hat : w.store.at? (w.store.resolve inputPath).names = some (.file content executable) :=
    Entry.at?_eq_file.2 hfound
  have hforward := hplain.forward (by rw [show w.store.root.at? _ = _ from hat]; simp)
  have hisFile := (isFile_absolute hplain hforward).2 ⟨_, _, hat⟩
  have hexists := (pathExists_absolute hplain hforward).trans (by rw [hfound])
  have hdir : w.store.isDir (.absolute (w.store.resolve inputPath).names) = false := by
    rw [← Bool.not_eq_true, isDir_absolute hplain hforward, hat]
    simp
  have hlist :
      ∃ fault, w.store.list (.absolute (w.store.resolve inputPath).names) = .error fault := by
    cases hlist : w.store.list (.absolute (w.store.resolve inputPath).names) with
    | error fault => exact ⟨fault, rfl⟩
    | ok names =>
      obtain ⟨_, hentries, -⟩ := list_of_ok hplain hforward hlist
      cases hfound.symm.trans hentries
  obtain ⟨out, hmapping⟩ :=
    runs_mapping_of_isFile outputPath (by simp [pathExists, hfile]) hisFile
  obtain ⟨events, hruns, hevents⟩ := runs_forEvents_single out hexists hisFile hdir hlist
  refine ⟨events, _, runs_events_of hmapping hruns, ?_⟩
  intro front e back hsplit hne
  obtain ⟨rfl, action, rfl⟩ := hevents front e back hsplit hne
  exact ⟨.inl ⟨_, _, hat⟩, [], _, [], rfl, rfl, by simp, List.prefix_refl _⟩

/-- **Nothing is written but at or below a root that was cleaned just before.** The input is a
directory or a single file. -/
theorem events_below_roots {inputPath : Path} (outputPath : Path) (hplain : w.store.root.Plain)
    (hexists : w.store.pathExists inputPath = true)
    (hnamed : NoModuleDir w.store.root (w.store.resolve inputPath).names) :
    ∃ events work,
      Runs (WorkList.ofPaths inputPath outputPath >>= WorkList.events) w (events, work) w ∧
      ∀ front e back, events = front ++ e :: back → e.action ≠ .clean →
        BelowRoot w.store.root front e := by
  obtain ⟨entry, hentry⟩ := Option.isSome_iff_exists.1 hexists
  have hplainEntry := (hplain.find? (find?_resolve hplain hentry)).1
  cases hplainEntry with
  | file => exact events_of_file outputPath hplain hentry
  | dir =>
    have hdir : w.store.isDir inputPath = true := by simp [Store.isDir, hentry, Entry.isDir]
    have hs : Orderly w.store.root (w.store.resolve inputPath).names :=
      ⟨hplain, at?_resolve hplain hdir, hnamed⟩
    obtain ⟨events, work, hruns, hlist⟩ := runs_events outputPath hplain hdir hs
    refine ⟨events, work, hruns, fun front e back hevents hne => ?_⟩
    obtain ⟨x, action, hhas, rfl⟩ := hlist.only e (by simp [hevents]) hne
    obtain ⟨root, before, between, -, hbelow, -, hfront, hbetween⟩ :=
      hlist.placed x action front back hne hevents
    obtain ⟨⟨_, _, _, hthere⟩, _⟩ := (hasEvent_iff hs).1 hhas
    refine ⟨?_, before, _, between, hfront, rfl, hbetween, ?_⟩
    · cases hhas with
      | @file content executable _ hfile _ => exact .inl ⟨content, executable, hfile⟩
      | directory hdir hname _ _ => exact .inr ⟨hdir, hname⟩
    · exact (List.prefix_append_right_inj _).2 (hs.out_below_root hthere hbelow)

/-! A package in a directory that is none, with a stub beside one of its modules and a directory
that has the name of a marker. There is also a module of its own. -/

def samplePackage : Entry :=
  .dir [("__init__.py", .file .empty false), ("a.py", .file .empty false),
    ("a.pyi", .file .empty false), ("py.typed", .dir [])]

def sampleModules : Entry :=
  .dir [("ns", .dir [("pkg", samplePackage)]), ("run.py", .file .empty false)]

def inputOnly (input : Entry) : Workspace where
  store := ⟨.dir [("in", input)], []⟩
  scratch := .absolute ["tmp"]
  interpreter := ""

theorem inputOnly_plain : (inputOnly sampleModules).store.root.Plain := by
  have hmarker : (Entry.dir []).Plain := .dir (by simp) (by simp) (by simp)
  have hpackage : samplePackage.Plain :=
    .dir (by decide) (by decide) (by simp [hmarker, Entry.Plain.file])
  have hns : (Entry.dir [("pkg", samplePackage)]).Plain :=
    .dir (by decide) (by decide) (by simp [hpackage])
  have hinput : sampleModules.Plain :=
    .dir (by decide) (by decide) (by simp [hns, Entry.Plain.file])
  exact .dir (by decide) (by decide) (by simp [hinput])

/-- What holds of the directory itself and of those at or below its entries holds of all directories
in it. -/
theorem forall_dir {entries} {P : List String → Prop} (htop : P [])
    (h : ∀ entry ∈ entries, ∀ q, entry.2.at? q = some .dir → P (entry.1 :: q)) :
    ∀ q, (Entry.dir entries).at? q = some .dir → P q := by
  intro q hq
  cases q with
  | nil => exact htop
  | cons name rest =>
    rw [Entry.at?_cons] at hq
    cases hchild : entries.lookup name with
    | none => simp [Entry.child?, hchild] at hq
    | some e =>
      refine h (name, e) ?_ rest (by simpa [Entry.child?, hchild] using hq)
      obtain ⟨front, back, rfl, -⟩ := List.lookup_eq_some_iff.1 hchild
      simp

theorem forall_dir_file {content executable} {P : List String → Prop} :
    ∀ q, (Entry.file content executable).at? q = some .dir → P q
  | [], h => by simp [Entry.at?_nil, Entry.item] at h
  | _ :: _, h => by simp [Entry.at?_cons, Entry.child?] at h

theorem sampleModules_named : NoModuleDir (inputOnly sampleModules).store.root ["in"] := by
  rintro _ ⟨rest, rfl⟩
  revert rest
  refine forall_dir (by decide) (List.forall_mem_cons.2 ⟨?_, ?_⟩)
  · refine forall_dir (by decide) (List.forall_mem_singleton.2 (forall_dir (by decide) ?_))
    simp only [List.forall_mem_cons]
    exact ⟨forall_dir_file, forall_dir_file, forall_dir_file,
      forall_dir (by decide) (by simp), by simp⟩
  · exact List.forall_mem_singleton.2 forall_dir_file

theorem inputOnly_resolve :
    ((inputOnly sampleModules).store.resolve (.read "in")).names = ["in"] := by
  decide +kernel

theorem inputOnly_isDir :
    (inputOnly sampleModules).store.isDir (.read "in") = true := by decide +kernel

theorem events_isWorkList_on_sample : (inputOnly sampleModules).store.root.Plain ∧
      (inputOnly sampleModules).store.isDir (.read "in") = true ∧
      NoModuleDir (inputOnly sampleModules).store.root ["in"] ∧
      ∃ events work, Runs (WorkList.ofPaths (.read "in") (.read "out") >>= WorkList.events)
        (inputOnly sampleModules) (events, work) (inputOnly sampleModules) ∧
        IsWorkList (inputOnly sampleModules).store.root ["in"] ["out"] events := by
  have hout : ((inputOnly sampleModules).store.resolve (.read "out")).names = ["out"] := by
    decide +kernel
  have hnamed := sampleModules_named
  rw [← inputOnly_resolve] at hnamed
  have hevents := events_isWorkList (.read "out") inputOnly_plain inputOnly_isDir hnamed
  rw [inputOnly_resolve, hout] at hevents
  exact ⟨inputOnly_plain, inputOnly_isDir, sampleModules_named, hevents⟩

theorem events_below_roots_on_sample : (inputOnly sampleModules).store.root.Plain ∧
      (inputOnly sampleModules).store.pathExists (.read "in") = true ∧
      NoModuleDir (inputOnly sampleModules).store.root ["in"] ∧
      ∃ events work, Runs (WorkList.ofPaths (.read "in") (.read "out") >>= WorkList.events)
        (inputOnly sampleModules) (events, work) (inputOnly sampleModules) ∧
        ∀ front e back, events = front ++ e :: back → e.action ≠ .clean →
          BelowRoot (inputOnly sampleModules).store.root front e := by
  have hnamed := sampleModules_named
  rw [← inputOnly_resolve] at hnamed
  have hexists : (inputOnly sampleModules).store.pathExists (.read "in") = true := by decide +kernel
  exact ⟨inputOnly_plain, hexists, sampleModules_named,
    events_below_roots (.read "out") inputOnly_plain hexists hnamed⟩

/-! A package whose name is that of a marker. -/

def sampleMarker : Entry :=
  .dir [("py.typed", .dir [("__init__.py", .file .empty false)])]

theorem runs_of_any {place}
    (h : ((WorkList.ofPaths (.read "in") (.read "out") >>= WorkList.events).run.run
      w).1.toOption.any (·.1.any fun e => e.action = action && e.input = .absolute place) = true) :
    ∃ events work w', Runs (WorkList.ofPaths (.read "in") (.read "out") >>= WorkList.events) w
      (events, work) w' ∧ ∃ e ∈ events, e.action = action ∧ e.input = .absolute place := by
  obtain ⟨⟨events, work⟩, w', hrun, hany⟩ := any_run_iff.1 h
  obtain ⟨e, he, hfound⟩ := List.any_eq_true.1 hany
  exact ⟨events, work, w', hrun, e, he, by simpa using hfound⟩

/-- A directory that has the name of a marker is to be copied like a file. -/
theorem events_copy_directory :
    (inputOnly sampleMarker).store.at? ["in", "py.typed"] = some .dir ∧
      ∃ events work w', Runs (WorkList.ofPaths (.read "in") (.read "out") >>= WorkList.events)
        (inputOnly sampleMarker) (events, work) w' ∧
        ∃ e ∈ events, e.action = .copy ∧ e.input = .absolute ["in", "py.typed"] :=
  ⟨rfl, runs_of_any (by decide +kernel)⟩

/-! A package whose name is that of a module. -/

def sampleNamed : Entry :=
  .dir [("a.py", .dir [("__init__.py", .file .empty false)])]

/-- A directory that has the name of a module is to be stubbed like a file. -/
theorem events_stub_directory : (inputOnly sampleNamed).store.at? ["in", "a.py"] = some .dir ∧
      ∃ events work w', Runs (WorkList.ofPaths (.read "in") (.read "out") >>= WorkList.events)
        (inputOnly sampleNamed) (events, work) w' ∧
        ∃ e ∈ events, e.action = .stub ∧ e.input = .absolute ["in", "a.py"] :=
  ⟨rfl, runs_of_any (by decide +kernel)⟩

end TypeStub.Generation
