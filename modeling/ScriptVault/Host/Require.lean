import ScriptVault.Evaluator.Basic
import ScriptVault.Host.Resolve
import ScriptVault.Script.Frame

/-!
# Require — loading modules at once

A module is run once; who asks for it while it runs gets the exports as they are.  A module that failed
fails again for all who ask, until it is evicted.
-/

namespace ScriptVault.Host

/-! ### Around a load -/

/-- Does something with entries pushed on the stacks of a loader, and takes as many off again. -/
def within {α : Type} (l : Nat) (cwds : List (Option String)) (parents : List String) (act : Action α) :
    Action α := ExceptT.mk do
  modify (onLoader l (·.enter cwds parents))
  let result ← act.run
  modify (onLoader l (·.leave cwds.length parents.length))
  return result

/-- Records that the innermost module asked for a specifier. -/
def depend (l : Nat) (context : Context) (id : String) (h : Host) : Host :=
  h.onLoader l (·.depend context id)

/-- Lets a specifier stand for the module it was resolved to: the loader evicts what was built on the module
it stood for before, and drops the module if it must not be used again. -/
def settle (l : Nat) (id : String) (resolved : Resolved) (context : Context) (h : Host) : Host :=
  let h := evicting l (fun loader =>
    let (evicted, loader) := loader.assign id resolved.id
    (evicted, if resolved.cache then loader else loader.drop resolved.id)) h
  match context.parent with
  | some parent => { h with files := h.files.depend parent resolved.id }
  | none => h

/-- The module that a specifier was resolved to. -/
def known (l : Nat) (id : String) (context : Context) (found : Option Resolved) : Action Resolved :=
  match found with
  | none => throw (.moduleNotFound id)
  | some resolved => do
    modify (settle l id resolved context)
    return resolved

/-! ### Slots -/

/-- What a slot holds. -/
def valueOf (h : Host) : ScriptSlot → Except Failure Value
  | .value v => .ok v
  | .module object => .ok (h.heap.get object (.text "exports"))
  | .failed failure => .error failure

/-- The tag of the exports of a module while it can be changed. -/
def openTag : Property := .hidden (.text "Module")

/-- The tag of the exports of a module for good. -/
def closedTag : Property := .frozen (.text "Module")

/-- Makes an exports object. -/
def newExports (heap : Heap) : Nat × Heap :=
  let (exports, heap) := heap.addRecord {}
  (exports, (heap.define exports .tag openTag).2)

/-- Makes a module object. -/
def newModule (heap : Heap) : Nat × Heap :=
  let (exports, heap) := newExports heap
  heap.ofEntries [(.text "exports", .object exports)]

/-- Keeps something in the script slot of a module. -/
def fill (l : Nat) (id : String) (slot : ScriptSlot) (h : Host) : Host :=
  h.onLoader l fun loader => loader.withSlots id { loader.slots id with script := some slot }

/-- What the script slot of a module holds, or the object of the module that is to be run. -/
def claim (l : Nat) (resolved : Resolved) (h : Host) : (Except Failure Value ⊕ Nat) × Host :=
  match ((h.loader l).slots resolved.id).script with
  | some slot => (.inl (h.valueOf slot), h)
  | none =>
    match resolved.value with
    | some v => (.inl (.ok v), h.fill l resolved.id (.value v))
    | none =>
      let (object, heap) := newModule h.heap
      (.inr object, { h with heap := heap }.fill l resolved.id (.module object))

/-- Keeps a failure for a module, if its slot is still that of the object that was run. -/
def fail (l : Nat) (id : String) (object : Nat) (failure : Failure) (h : Host) : Host :=
  match (h.loader l).slots id |>.script with
  | some (.module current) => if current = object then h.fill l id (.failed failure) else h
  | _ => h

/-! ### Running -/

/-- The script that is run for a module. -/
def scriptFor (settings : Settings) (resolved : Resolved) : String :=
  resolved.compiled.getD (Script.withSourceUrl resolved.code resolved.id settings.sourceRoot)

/-- What a script is run with. -/
def scopeFor (h : Host) (l : Nat) (resolved : Resolved) (object : Nat) : Scope where
  id := resolved.id
  code := scriptFor h.settings resolved
  module := object
  exports := h.heap.get object (.text "exports")
  process := (h.loader l).process
  app := (h.loader l).app
  loader := l

/-- The exports of a module that has run; an object is tagged for good. -/
def close (object : Nat) (h : Host) : Value × Host :=
  match h.heap.get object (.text "exports") with
  | .object exports => (.object exports, { h with heap := (h.heap.define exports .tag closedTag).2 })
  | v => (v, h)

/-- Runs a module as a script. -/
def runScript (ev : Evaluator) (load : String → Action Value) (l : Nat) (resolved : Resolved)
    (object : Nat) : Action Value := do
  if resolved.compiled.isNone then liftExcept (ev.check resolved.id resolved.code)
  within l [resolved.cwd] [resolved.id] do
    modify fun h => { h with scripts := h.scripts + 1 }
    ev.runScript load (scopeFor (← get) l resolved object)
  modifyGet (close object)
where
  /-- A failure as that of an action. -/
  liftExcept {α : Type} (x : Except Failure α) : Action α := ExceptT.mk (pure x)

/-- Loads what a specifier stands for, as a script; scripts may load others `depth` deep. -/
def require (ev : Evaluator) : (depth : Nat) → (l : Nat) → (id : String) → (cwd : Option String) →
    Action Value
  | 0, _, _, _ => ExceptT.mk fun _ => none
  | depth + 1, l, id, cwd =>
    within l (cwd.toList.map some) [] do
      let context := ((← get).loader l).context
      modify (depend l context id)
      let resolved ← known l id context (← resolve id context)
      match ← modifyGet (claim l resolved) with
      | .inl found => ExceptT.mk (pure found)
      | .inr object =>
        let load (id : String) := require ev depth l id none
        tryCatch (runScript ev load l resolved object) fun failure => do
          modify (fail l resolved.id object failure)
          throw failure

/-- How deep scripts may load others. -/
def depthLimit : Nat := 5000

end ScriptVault.Host
