import TypeStub.Files.Walk
/-!
# What a generation run has to do

A run takes modules from an input to an output. The work is a list of events: each root of a tree
of modules is cleaned in the output, and then each of its files is stubbed or copied.
-/

namespace TypeStub.Generation

open TypeStub.Files TypeStub.WorkM

/-- Where modules are taken from, and where their stubs go. If the input is a single file, the
output is that of its stub. -/
structure Mapping where
  input : Path
  output : Path
  single : Bool
  deriving DecidableEq, Repr

/-- What is to be done with a path. -/
inductive Action where
  /-- The output of a tree of modules is removed. -/
  | clean
  | copy
  | stub
  deriving DecidableEq, Repr

/-- A path of the input and its path in the output, each also as it is shown. -/
structure Event where
  action : Action
  input : Path
  inputText : String
  output : Path
  outputText : String
  deriving DecidableEq, Repr

namespace Mapping

def ofPaths (input output : Path) : WorkM Mapping := do
  let store ← files
  if !store.pathExists input then throw .noInput
  let input := store.resolve input
  let output := store.resolve output
  let single := store.isFile input
  if single && store.isDir output then
    let target := output.child input.name
    match if input.suffix == ".py" then target.withSuffix? ".pyi" else some target with
    | some output => return { input, output, single }
    | none => throw .outside
  return { input, output, single }

def event? (m : Mapping) (action : Action) (path : Path) : Option Event := do
  let below ← path.relativeTo? m.input
  let target := m.output.join below
  if m.single then
    return { action, input := path, inputText := path.name, output := target,
             outputText := target.name }
  let output ← if path.suffix == ".py" then target.withSuffix? ".pyi" else some target
  let shown ← output.relativeTo? m.output
  return { action, input := path, inputText := below.text, output, outputText := shown.text }

def event (m : Mapping) (action : Action) (path : Path) : WorkM Event :=
  match m.event? action path with
  | some e => pure e
  | none => throw .outside

end Mapping

/-- What is to be done with a path below the root of a tree of modules. A module that has a stub
beside it is not stubbed. -/
def fileAction? (store : Store) (path : Path) : Option Action :=
  if path.suffix == ".py" && !((path.withSuffix? ".pyi").any store.pathExists) then some .stub
  else if path.suffix == ".pyi" || path.name == "py.typed" then some .copy
  else none

variable {σ : Type}

def foldModule (m : Mapping) (visit : σ → Event → WorkM σ) (s : σ) (root : Path) : WorkM σ :=
  foldPaths (fun s path => do
    -- A path without a place in the output is an error even if nothing is to be done with it.
    let e ← m.event .copy path
    match fileAction? (← files) path with
    | some action => visit s { e with action }
    | none => pure s) s root

def foldEvents (m : Mapping) (visit : σ → Event → WorkM σ) (s : σ) : WorkM σ := do
  foldRoots (fun s root => do
    let s ← visit s (← m.event .clean root)
    foldModule m visit s root) (← walkDepth) s m.input

def forEvents (m : Mapping) (handle : Event → WorkM Unit) : WorkM (List Event) :=
  foldEvents m (fun done e => do
    handle e
    return done ++ [e]) []

/-- The work of a mapping. The events are found while they are handled for the first time, and kept
from then on. -/
structure WorkList where
  mapping : Mapping
  found : Option (List Event) := none
  deriving DecidableEq, Repr

namespace WorkList

def ofPaths (input output : Path) : WorkM WorkList :=
  return { mapping := ← Mapping.ofPaths input output }

/-- Handles all events in order. Events that were found before are handled again as they were,
whatever has become of the files since. -/
def forEach (w : WorkList) (handle : Event → WorkM Unit) : WorkM WorkList :=
  match w.found with
  | some events => do
    events.forM handle
    return w
  | none => return { w with found := some (← forEvents w.mapping handle) }

def events (w : WorkList) : WorkM (List Event × WorkList) :=
  match w.found with
  | some events => return (events, w)
  | none => do
    let events ← forEvents w.mapping fun _ => pure ()
    return (events, { w with found := some events })

end WorkList

end TypeStub.Generation
