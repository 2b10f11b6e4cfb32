import ScriptVault.Host.Import

/-!
# Start — running the startup modules

A startup module is imported, and what it exports as default, or else the module itself, is called.  One
that fails counts as run, so that the others are not held up.
-/

namespace ScriptVault.Host

/-! ### Running a module -/

/-- The main realm. -/
def mainRealm : Nat := 0

/-- Calls a startup module. -/
def callStartup (id : String) (module : Value) (h : Host) : Except Failure Value × Host :=
  let (entry, heap) := h.heap.read module (.text "default")
  let entry := if entry.isNullish then module else entry
  match entry with
  | .function f =>
    let (result, heap) := heap.call f .undefined []
    (result, { h with heap := heap })
  | _ => (.error (.wrongType ("'" ++ id ++ "' exports no function")), { h with heap := heap })

/-- Imports a startup module and calls it. -/
def runStartup (id : String) : Errand Value := do
  match ← (Async.view (·.loaderOf? mainRealm) : Async Host Work (Option Nat)) with
  | none => throw (.config "no loader installed")
  | some l =>
    let module ← importAs l id none true
    ExceptT.mk (Async.step (callStartup id module) : Async Host Work (Except Failure Value))

/-- Does something with the startup modules. -/
def onStartup {α : Type} (act : Startup → α × Startup) : Async Host Work α :=
  Async.step fun h => ((act h.startup).1, { h with startup := (act h.startup).2 })

/-- Runs a startup module, and counts it as run whatever came of it. -/
def runAndCount (id : String) : Async Host Work Unit := do
  discard (runStartup id).run
  onStartup fun s => ((), s.ran id)

/-! ### Loading -/

/-- Requests modules, waits for some nanoseconds, and runs the requested modules that did not run, unless a
later load does; tells whether one of the modules is new. -/
def loadStartup (delay : Nat) (ids : List String) : Async Host Work Bool := do
  let (added, generation) ← onStartup (·.begin ids)
  let isLatest ← (do
    if delay = 0 then return true
    Async.sleep delay
    Async.view fun h => h.startup.generation == generation)
  if isLatest then
    let pending ← Async.view fun h => h.startup.pending
    Async.all (pending.map runAndCount)
  return added

/-- Lets modules run again, after some nanoseconds. -/
def reloadStartup (delay : Nat) (ids : List String) : Async Host Work Bool := do
  onStartup fun s => ((), s.renew ids)
  loadStartup delay ids

/-- Requests modules no longer, and tells whether one of them was. -/
def unloadStartup (ids : List String) (h : Host) : Bool × Host :=
  let (removed, startup) := h.startup.unload ids
  (removed, { h with startup := startup })

/-- Looks at all files, loads what is to be loaded ahead of time, and runs the startup modules. -/
def start : Async Host Work Unit := do
  Async.change fun h => h.absorb h.files.rebuild
  preload (← Async.view (·.settings.preloadedExternalLinks))
  Async.change fun h =>
    { h with watched := (h.loaderOf? mainRealm).map fun l => (h.loader l).stream }
  discard (loadStartup 0 (← Async.view (·.settings.startupModules)))

/-! ### Work -/

/-- Imports a specifier on behalf of nobody who waits, and tells what came of it. -/
def flight (id l : Nat) (specifier : String) (cwd : Option String) (interop : Bool) :
    Async Host Work Unit := do
  let result ← (importAs l specifier cwd interop).run
  Async.change (tell id (.value result))

/-- Evaluates a module, and tells what came of it. -/
def evaluating (ev : Evaluator) (id : Nat) (source : ModuleSource) : Async Host Work Unit := do
  let load (specifier : String) := require ev depthLimit source.loader specifier none
  let result ← (ev.runModule load source).run
  Async.change (tell id (.names result))

/-- Does work under its number. -/
def perform (ev : Evaluator) (id : Nat) : Work → Async Host Work Unit
  | .importing l resolved interop => importing id l resolved interop
  | .evaluating source => evaluating ev id source
  | .compiling request => compiling id request
  | .fetching href token => fetching id href token
  | .reloading delay ids => discard (reloadStartup delay ids)
  | .starting delay ids => discard (loadStartup delay ids)
  | .flight l specifier cwd interop => flight id l specifier cwd interop

/-- How work is done with an evaluator. -/
def plan (ev : Evaluator) : Plan Host Work where
  perform id work := (perform ev id work).fiber
  collect h := (h.asked, { h with asked := [] })

end ScriptVault.Host
