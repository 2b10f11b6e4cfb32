import ScriptVault.Value.Facade

/-!
# Call — calling functions and constructing with them

A wrapper is made after the function it wraps, so a chain of wrappers is no longer than the place of its
first function, and every call ends.
-/

namespace ScriptVault.Heap

/-- The arguments as properties with numbered keys. -/
def numbered (start : String) (args : List Value) : List (Key × Value) :=
  args.zipIdx.map fun (v, i) => (.text (start ++ toString i), v)

/-- Calls a function that wraps at most `fuel` others. -/
def callUpTo : Nat → Heap → Nat → Value → List Value → Except Failure Value × Heap
  | fuel, h, f, this, args =>
    let function := h.function f
    match function.body with
    | .idle => (.ok .undefined, h)
    | .receiver => (.ok this, h)
    | .receiverType => (.ok (.text this.typeName), h)
    | .arguments =>
      let (o, h) := h.ofEntries (numbered "" args)
      (.ok (.object o), h)
    | .read key =>
      let (v, h) := h.read this key
      (.ok v, h)
    | .assign key =>
      let (done, h) := h.write this key (args.headD .undefined)
      (.ok (.bool done), h)
    | .fail reason => (.error (.evaluation function.name reason), h)
    | .count counter => (.ok .undefined, h.tick counter)
    | .constructOnly =>
      (.error (.wrongType ("Class constructor " ++ function.name ++ " cannot be invoked without 'new'")), h)
    | .forward facade target =>
      match fuel with
      | 0 => (.ok .undefined, h)
      | fuel + 1 =>
        let this := match this with
          | .facade r => if r = facade then .object (h.facade facade).namespace else this
          | _ => this
        callUpTo fuel h target this args

/-- Calls a function. -/
def call (h : Heap) (f : Nat) (this : Value) (args : List Value) : Except Failure Value × Heap :=
  callUpTo f h f this args

/-- Constructs with a function that wraps at most `fuel` others; `builtFor` is the function that the
object is built for, the function itself if there is no other. -/
def constructUpTo : Nat → Heap → Nat → List Value → Option Nat → Except Failure Value × Heap
  | fuel, h, f, args, builtFor =>
    let function := h.function f
    let target := builtFor.getD f
    match function.build with
    | none => (.error (.wrongType (function.name ++ " is not a constructor")), h)
    | some .refuse => (.error (.wrongType ("cannot build " ++ (h.function target).name)), h)
    | some .fields =>
      let (o, h) := h.ofEntries ((.text "target", .function target) :: numbered "arg" args)
      (.ok (.object o), h)
    | some .signature =>
      let (o, h) := h.ofEntries [(.text "constructed_by", .text (h.function target).name)]
      (.ok (.object o), h)
    | some (.forward inner) =>
      match fuel with
      | 0 => (.ok .undefined, h)
      | fuel + 1 => constructUpTo fuel h inner args (if target = f then none else some target)

/-- Constructs with a function. -/
def construct (h : Heap) (f : Nat) (args : List Value) (builtFor : Option Nat) :
    Except Failure Value × Heap :=
  constructUpTo f h f args builtFor

/-- Calls what a facade holds under a key, with the facade as receiver. -/
def facadeCall (h : Heap) (f : Nat) (key : Key) (args : List Value) : Except Failure Value × Heap :=
  match h.facadeGet f key with
  | (.function function, h) => h.call function (.facade f) args
  | (_, h) => (.error (.wrongType (key.name ++ " is not a function")), h)

/-- Constructs with what a facade holds under a key. -/
def facadeConstruct (h : Heap) (f : Nat) (key : Key) (args : List Value) :
    Except Failure Value × Heap :=
  match h.facadeGet f key with
  | (.function function, h) => h.construct function args none
  | (_, h) => (.error (.wrongType (key.name ++ " is not a constructor")), h)

end ScriptVault.Heap
