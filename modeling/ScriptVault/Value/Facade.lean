import ScriptVault.Value.Object

/-!
# Facade — a module seen as a script's exports

A module that is imported for scripts has two objects: the exports that its body filled, and the namespace
of its declarations.  A facade shows both: reads look at the exports first, and all changes go to them.
Functions of the namespace are handed out in wrappers, one for each, which put the namespace in where the
facade is the receiver.
-/

namespace ScriptVault.Heap

/-- The wrapper of a function of a facade's namespace. -/
def wrapper (h : Heap) (f function : Nat) : Nat × Heap :=
  let facade := h.facade f
  match facade.wrappers.lookup function with
  | some w => (w, h)
  | none =>
    let target := h.function function
    let (w, h) := h.addFunction
      { name := target.name
        body := .forward f function
        build := target.build.map fun _ => .forward function }
    let facade := { facade with wrappers := facade.wrappers ++ [(function, w)] }
    (w, { h with facades := h.facades.setIfInBounds f facade })

/-- What a facade holds under a key. -/
def facadeGet (h : Heap) (f : Nat) (key : Key) : Value × Heap :=
  let facade := h.facade f
  if h.has facade.exports key then (h.get facade.exports key, h)
  else
    match h.get facade.namespace key with
    | .function function =>
      let (w, h) := h.wrapper f function
      (.function w, h)
    | v => (v, h)

/-- A facade has what its exports or its namespace have. -/
def facadeHas (h : Heap) (f : Nat) (key : Key) : Bool :=
  h.has (h.facade f).exports key || h.has (h.facade f).namespace key

/-- The own keys of the exports, and those of the namespace that are not among them. -/
def facadeKeys (h : Heap) (f : Nat) : List Key :=
  let keys := h.ownKeys (h.facade f).exports
  (h.ownKeys (h.facade f).namespace).foldl (fun all k => if all.contains k then all else all ++ [k]) keys

/-- The own property of the exports, or else of the namespace. -/
def facadeOwn? (h : Heap) (f : Nat) (key : Key) : Option Property :=
  (h.own? (h.facade f).exports key).orElse fun _ => h.own? (h.facade f).namespace key

/-- The object that changes of a value go to. -/
def target? (h : Heap) : Value → Option Nat
  | .object o => some o
  | .facade f => some (h.facade f).exports
  | _ => none

/-- What a value holds under a key; only objects and facades hold anything. -/
def read (h : Heap) (v : Value) (key : Key) : Value × Heap :=
  match v with
  | .object o => (h.get o key, h)
  | .facade f => h.facadeGet f key
  | _ => (.undefined, h)

/-- Assigns a property of a value. -/
def write (h : Heap) (v : Value) (key : Key) (new : Value) : Bool × Heap :=
  match h.target? v with
  | some o => h.set o key new
  | none => (false, h)

/-- What a value holds at the end of a path of keys. -/
def readPath (h : Heap) (v : Value) : List String → Value × Heap
  | [] => (v, h)
  | key :: path =>
    let (v, h) := h.read v (.text key)
    readPath h v path

end ScriptVault.Heap
