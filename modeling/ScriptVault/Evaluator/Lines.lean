import ScriptVault.Evaluator.Statement
import ScriptVault.Host.Require

/-!
# Lines — running scripts of one statement a line

The statements run one after another, and the first that fails ends the module.  A module with the
bindings of a script has a module object of its own, which its namespace shows under `module`.
-/

namespace ScriptVault.Lines

/-- The bindings of a module that runs. -/
structure Frame where
  /-- The name of the module. -/
  id : String
  /-- The module object, if it has one. -/
  module : Option Nat
  /-- The exports that it began with. -/
  exports : Value
  /-- What it knows as `process`. -/
  process : Nat
  /-- What it knows as `app`. -/
  app : Value
  /-- The loader that serves it. -/
  loader : Nat
  /-- Loads a specifier. -/
  load : String → Action Value

namespace Frame

/-- Does something with the heap. -/
def onHeap {α : Type} (act : Heap → α × Heap) : Action α :=
  modifyGet fun h => ((act h.heap).1, { h with heap := (act h.heap).2 })

/-- The module object; a module without the bindings of a script has none. -/
def moduleObject (f : Frame) : Action Nat :=
  match f.module with
  | some object => return object
  | none => throw (.evaluation f.id "module is not defined")

/-- The exports that the module has now. -/
def currentExports (f : Frame) : Action Value := do
  let object ← f.moduleObject
  return (← get).heap.get object (.text "exports")

/-- The value of an expression. -/
def value (f : Frame) : Expression → Action Value
  | .literal json => onHeap (·.ofJson json)
  | .undefined => return .undefined
  | .exports => return f.exports
  | .moduleExports => f.currentExports
  | .app => return f.app
  | .cwd => return (((← get).loader f.loader).context.cwd).elim .null .text
  | .process path => onHeap (·.readPath (.object f.process) path)
  | .counter name => onHeap fun heap =>
    let (function, heap) := heap.addFunction { name := name, body := .count name }
    (.function function, heap)
  | .blueprint name => onHeap fun heap =>
    let (function, heap) :=
      heap.addFunction { name := name, body := .constructOnly, build := some .signature }
    (.function function, heap)
  | .load specifier path => do
    let v ← f.load specifier
    onHeap (·.readPath v path)

/-- Runs a statement; tells the bindings that it declares.  Waiting is left to whoever can. -/
def run (f : Frame) : Statement → Action (List (Key × Value))
  | .tick name => do
    onHeap fun heap => ((), heap.tick name)
    return []
  | .fail message => throw (.evaluation f.id message)
  | .sleep _ => return []
  | .replaceExports e => do
    let v ← f.value e
    let object ← f.moduleObject
    discard (onHeap (·.set object (.text "exports") v))
    return []
  | .assignModule name e => do
    let v ← f.value e
    let exports ← f.currentExports
    discard (onHeap (·.write exports (.text name) v))
    return []
  | .assign name e => do
    let v ← f.value e
    let done ← onHeap (·.write f.exports (.text name) v)
    if !done then throw (.wrongType ("cannot set exports." ++ name))
    return []
  | .remove name => do
    if let .object exports := f.exports then discard (onHeap (·.delete exports (.text name)))
    return []
  | .declare name e => return [(.text name, ← f.value e)]

/-- Runs statements, of which none waits. -/
def runAll (f : Frame) : List Statement → Action Unit
  | [] => return ()
  | statement :: rest => do
    discard (f.run statement)
    runAll f rest

/-- Runs statements, which may wait; tells the bindings that they declare. -/
def runLater (f : Frame) : List Statement → Errand (List (Key × Value))
  | [] => return []
  | .sleep millis :: rest => do
    (Async.sleep (millis * Schedule.nanosPerTick) : Async Host Work Unit)
    runLater f rest
  | statement :: rest => do
    let bindings ← (f.run statement : Action _)
    return bindings ++ (← runLater f rest)

end Frame

/-- Runs a script. -/
def runScript (load : String → Action Value) (scope : Scope) : Action Unit := do
  let statements ← ExceptT.mk (pure (Statement.readAll scope.id scope.code false))
  let frame : Frame :=
    ⟨scope.id, some scope.module, scope.exports, scope.process, scope.app, scope.loader, load⟩
  frame.runAll statements

/-- The module object of a module with the given declarations before it. -/
def boundModule (source : ModuleSource) : Action (Option Nat) :=
  match source.prelude with
  | none => return none
  | some text =>
    if text.startsWith "export let module=" then some <$> Frame.onHeap Host.newModule
    else throw (.badSyntax source.id "malformed prelude")

/-- Evaluates a module. -/
def runModule (load : String → Action Value) (source : ModuleSource) : Errand Nat := do
  let statements ← ExceptT.mk (pure (Statement.readAll source.id source.code true))
  let module ← (boundModule source : Action _)
  let exports ← (do
    match module with
    | some object => return (← get).heap.get object (.text "exports")
    | none => return .undefined : Action Value)
  let frame : Frame :=
    ⟨source.id, module, exports, source.process, source.app, source.loader, load⟩
  let bindings ← frame.runLater statements
  let own := module.toList.map fun object => (Key.text "module", Value.object object)
  (Frame.onHeap (·.addRecord (Heap.moduleRecord (bindings ++ own))) : Action Nat)

/-- The evaluator of scripts of one statement a line. -/
def evaluator : Evaluator where
  check id code := (Statement.readAll id code false).map fun _ => ()
  runScript := runScript
  runModule := runModule

end ScriptVault.Lines
