import ScriptVault.Host.Later
import ScriptVault.Host.Require

/-!
# Import — loading modules that may take their time

An import is evaluated once, by all who ask for it together, and what came of it is kept.  One that takes
too long fails for all who wait, and is forgotten, so that the next one begins anew; what comes of the
evaluation afterwards counts for nobody.
-/

namespace ScriptVault.Host

/-! ### Around an import -/

/-- Does something with entries pushed on the stacks of a loader, and takes as many off again. -/
def withinLater {α : Type} (l : Nat) (cwds : List (Option String)) (parents : List String)
    (act : Async Host Work α) : Async Host Work α := do
  Async.change (onLoader l (·.enter cwds parents))
  let result ← act
  Async.change (onLoader l (·.leave cwds.length parents.length))
  return result

/-! ### Evaluating -/

/-- The loader's part of evaluating a module: what it is evaluated with. -/
def sourceFor (h : Host) (l : Nat) (resolved : Resolved) (interop : Bool) : ModuleSource where
  id := resolved.id
  code := Script.withSourceUrl resolved.code resolved.id h.settings.sourceRoot
  «prelude» := if interop then some (Script.prelude h.settings.requireName) else none
  process := (h.loader l).process
  app := (h.loader l).app
  loader := l

/-- The seconds of some nanoseconds. -/
def seconds (nanos : Nat) : Float :=
  (nanos / Settings.nanosPerSecond).toFloat +
    (nanos % Settings.nanosPerSecond).toFloat / Settings.nanosPerSecond.toFloat

/-- The exports of a module that was evaluated with the bindings of a script. -/
def exportsOf (names : Nat) (heap : Heap) : Nat × Heap :=
  let (module, heap) := heap.read (.object names) (.text "module")
  let (exports, heap) := heap.read module (.text "exports")
  match exports with
  | .object exports => (exports, heap)
  | v =>
    let (exports, heap) := heap.addRecord {}
    if v.isNullish then (exports, heap)
    else (exports, (heap.define exports (.text "default") (.hidden v)).2)

/-- Makes the facade of a module that was evaluated with the bindings of a script. -/
def facadeOf (names : Nat) (h : Host) : Value × Host :=
  let (exports, heap) := exportsOf names h.heap
  let heap := (heap.define exports .tag closedTag).2
  let (facade, heap) := heap.addFacade exports names
  (.facade facade, { h with heap := heap })

/-- The value of a module that was evaluated. -/
def imported (task : Nat) (interop : Bool) (h : Host) : Except Failure Value × Host :=
  match Outcome.asNames (h.outcome? task) with
  | .error failure => (.error failure, h)
  | .ok names =>
    if interop then
      let (v, h) := facadeOf names h
      (.ok v, h)
    else (.ok (.object names), h)

/-- Begins to evaluate a module in a task of its own; tells the task's number. -/
def evaluate (source : ModuleSource) : Async Host Work Nat := do
  Async.change fun h => { h with modules := h.modules + 1 }
  let task ← fresh
  Async.spawn task (.evaluating source)
  return task

/-- Evaluates a module that was resolved, and tells what came of it. -/
def importing (id l : Nat) (resolved : Resolved) (interop : Bool) : Async Host Work Unit := do
  let source ← Async.view fun h => h.sourceFor l resolved interop
  let limit ← Async.view fun h => h.settings.importNanos?
  let (task, ended) ← withinLater l [resolved.cwd] [resolved.id] do
    let task ← evaluate source
    let ended ← Async.join task limit
    Async.rest
    return (task, ended)
  Async.change fun h =>
    if ended then
      let (result, h) := h.imported task interop
      h.tell id (.value result)
    else h.tell id (.value (.error (.timeout resolved.id (seconds (limit.getD 0)))))

/-! ### Importing -/

/-- Keeps something in a slot of imports. -/
def fillImport (l : Nat) (id : String) (interop : Bool) (slot : Option ImportSlot) (h : Host) : Host :=
  h.onLoader l fun loader => loader.withSlots id ((loader.slots id).withImported interop slot)

/-- What a slot of imports holds, filled if it was empty; with the number of an import that is to begin. -/
def claimImport (l : Nat) (resolved : Resolved) (interop : Bool) (h : Host) :
    (ImportSlot × Option Nat) × Host :=
  match ((h.loader l).slots resolved.id).imported interop with
  | some slot => ((slot, none), h)
  | none =>
    match resolved.value with
    | some v => ((.value v, none), h.fillImport l resolved.id interop (some (.value v)))
    | none =>
      let (work, h) := h.number
      ((.pending work, some work), h.fillImport l resolved.id interop (some (.pending work)))

/-- Forgets an import that took too long, unless another one is in its place. -/
def forgetImport (l : Nat) (id : String) (interop : Bool) (work : Nat) (h : Host) : Host :=
  match ((h.loader l).slots id).imported interop with
  | some (.pending current) => if current = work then h.fillImport l id interop none else h
  | _ => h

/-- What comes of a slot of imports. -/
def awaitImport (l : Nat) (id : String) (interop : Bool) : ImportSlot → Async Host Work (Except Failure Value)
  | .value v => return .ok v
  | .pending work => do
    Async.await work
    let result ← Async.view fun h => Outcome.asValue (h.outcome? work)
    if let .error failure := result then
      if failure.isTimeout then Async.change (forgetImport l id interop work)
    return result

/-- Imports what a specifier stands for. -/
def importAs (l : Nat) (id : String) (cwd : Option String) (interop : Bool) : Errand Value :=
  ExceptT.mk <| withinLater l (cwd.toList.map some) [] <| ExceptT.run do
    let context ← (Async.view fun h => (h.loader l).context : Async Host Work Context)
    (Async.change (depend l context id) : Async Host Work Unit)
    let found ← resolveLater id context
    let resolved ← (known l id context found : Action Resolved)
    let (slot, begun) ← (Async.step (claimImport l resolved interop) : Async Host Work _)
    if let some work := begun then
      (Async.share work (.importing l resolved interop) : Async Host Work Unit)
    ExceptT.mk (awaitImport l resolved.id interop slot)

/-- Imports some specifiers side by side, and tells what came of each under its number. -/
def importAll (l : Nat) (numbered : List (String × Nat)) (cwd : Option String) (interop : Bool) :
    Async Host Work Unit :=
  Async.all (numbered.map fun (id, n) => do
    let result ← (importAs l id cwd interop).run
    Async.change (tell n (.value result)))

end ScriptVault.Host
