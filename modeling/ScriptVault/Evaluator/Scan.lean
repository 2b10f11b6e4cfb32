import ScriptVault.Host.Require
import ScriptVault.Script.Calls
import ScriptVault.Script.Check

/-!
# Scan — modules as what they load

Without an engine a module can still be followed: all specifiers that its code loads by a literal call are
loaded, in their order, and its exports map each of them to what it exports.
-/

namespace ScriptVault.Scan

/-- Loads what a code loads, and puts it into the exports. -/
def loadAll (load : String → Action Value) (exports : Value) : List Script.Call → Action Unit
  | [] => return ()
  | call :: rest => do
    let v ← load call.specifier
    modify fun h => { h with heap := (h.heap.write exports (.text call.specifier) v).2 }
    loadAll load exports rest

/-- Follows a code. -/
def follow (load : String → Action Value) (id code : String) (exports : Value) : Action Unit := do
  loadAll load exports (← ExceptT.mk (pure (Script.calls id code.toList)))

/-- Follows a module, and makes its namespace. -/
def runModule (load : String → Action Value) (source : ModuleSource) : Action Nat := do
  let exports ← modifyGet fun h =>
    let (exports, heap) := Host.newExports h.heap
    (exports, { h with heap := heap })
  follow load source.id source.code (.object exports)
  modifyGet fun h =>
    let (own, heap) :=
      if source.prelude.isSome then
        let (object, heap) := h.heap.ofEntries [(.text "exports", .object exports)]
        ([(Key.text "module", Value.object object)], heap)
      else ([], h.heap)
    let (names, heap) :=
      heap.addRecord (Heap.moduleRecord ((.text "default", .object exports) :: own))
    (names, { h with heap := heap })

/-- The evaluator that follows literal calls. -/
def evaluator : Evaluator where
  check id code := Script.check id code.toList
  runScript load scope := follow load scope.id scope.code scope.exports
  runModule load source := liftM (runModule load source)

end ScriptVault.Scan
