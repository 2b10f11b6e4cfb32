import ScriptVault.Context
import ScriptVault.Graph
import ScriptVault.Value.Heap

/-!
# Basic — what a loader keeps

A realm has a loader, which keeps what came of each module in up to three forms: run as a script, and
imported with and without the bindings of a script.  An import is shared by all who ask for it while it is
under way, and afterwards.
-/

namespace ScriptVault

/-- What came of a module that was run as a script. -/
inductive ScriptSlot where
  /-- A value that stands for the module as it is. -/
  | value (v : Value)
  /-- The module object, whose exports are looked at each time. -/
  | module (object : Nat)
  /-- It failed, and fails again for all who ask. -/
  | failed (failure : Failure)

/-- What comes of a module that is imported. -/
inductive ImportSlot where
  /-- A value that stands for the module as it is. -/
  | value (v : Value)
  /-- It is told under this number. -/
  | pending (work : Nat)

/-- What came of a module. -/
structure Slots where
  /-- Run as a script. -/
  script : Option ScriptSlot := none
  /-- Imported. -/
  plain : Option ImportSlot := none
  /-- Imported with the bindings of a script. -/
  bound : Option ImportSlot := none

namespace Slots

/-- One of the two slots of imports. -/
def imported (s : Slots) (interop : Bool) : Option ImportSlot := if interop then s.bound else s.plain

/-- Fills or empties one of the two slots of imports. -/
def withImported (s : Slots) (interop : Bool) (slot : Option ImportSlot) : Slots :=
  if interop then { s with bound := slot } else { s with plain := slot }

end Slots

/-- The loader of a realm. -/
structure Loader where
  /-- The modules, and which was built on which. -/
  graph : Graph Slots := {}
  /-- For whom modules are loaded. -/
  context : Context := {}
  /-- The value that scripts know as `app`. -/
  app : Value := .undefined
  /-- The object that scripts know as `process`. -/
  process : Nat := 0
  /-- Where evicted modules are announced; a loader that replaces another one goes on with its stream. -/
  stream : Nat := 0
  /-- It is used by others than its realm, and so outlives being replaced. -/
  held : Bool := true
  /-- It follows what the resolvers announce. -/
  listening : Bool := true

namespace Loader

/-- What is kept of a module. -/
def slots (l : Loader) (id : String) : Slots := (l.graph.slots? id).getD {}

/-- Keeps something of a module. -/
def withSlots (l : Loader) (id : String) (slots : Slots) : Loader :=
  { l with graph := { l.graph with cache := l.graph.cache.put id slots } }

/-- Drops what is kept of a module. -/
def drop (l : Loader) (id : String) : Loader :=
  { l with graph := { l.graph with cache := l.graph.cache.erase id } }

/-- Records that the innermost module asked for a specifier. -/
def depend (l : Loader) (context : Context) (id : String) : Loader :=
  match context.parent with
  | some parent => { l with graph := l.graph.depend parent id }
  | none => l

/-- Lets a specifier stand for a module; tells the evicted modules if it stood for another before. -/
def assign (l : Loader) (raw canonical : String) : List String × Loader :=
  match l.graph.assign raw canonical with
  | (none, graph) => ([], { l with graph := graph })
  | (some _, graph) =>
    let (evicted, graph) := graph.invalidate raw
    (evicted, { l with graph := graph })

/-- Evicts a module and all that was built on it. -/
def evict (l : Loader) (id : String) : List String × Loader :=
  let (evicted, graph) := l.graph.invalidate id
  (evicted, { l with graph := graph })

/-- Pushes working directories and modules. -/
def enter (l : Loader) (cwds : List (Option String)) (parents : List String) : Loader :=
  { l with
    context := parents.foldl Context.pushParent (cwds.foldl Context.pushCwd l.context) }

/-- Takes off as many entries as were pushed. -/
def leave (l : Loader) (cwds parents : Nat) : Loader :=
  { l with context := l.context.pop cwds parents }

end Loader

end ScriptVault
