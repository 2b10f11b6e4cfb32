import ScriptVault.Json.Basic
import ScriptVault.Value.Heap

/-!
# Object — properties, prototypes and flags

Reads follow the prototypes; writes change the object itself, unless a flag on the way forbids it.  Every
operation that may be refused answers whether it was done, and a refused one changes nothing.
-/

namespace ScriptVault

/-- The own property under a key. -/
def Record.find? (r : Record) (key : Key) : Option Property := r.properties.lookup key

/-- The own properties with one replaced. -/
def Record.replace (key : Key) (p : Property) : List (Key × Property) → List (Key × Property)
  | [] => []
  | (k, q) :: rest => if k = key then (k, p) :: rest else (k, q) :: replace key p rest

/-- The own properties without the first under a key. -/
def Record.without (key : Key) : List (Key × Property) → List (Key × Property)
  | [] => []
  | (k, q) :: rest => if k = key then rest else (k, q) :: without key rest

namespace Heap

/-! ### Reading -/

/-- The own property of an object. -/
def own? (h : Heap) (o : Nat) (key : Key) : Option Property := (h.record o).find? key

/-- The object and those it inherits from, the nearest first; at most `fuel` of them. -/
def chainUpTo (h : Heap) : Nat → Nat → List Nat
  | 0, _ => []
  | fuel + 1, o =>
    o :: match (h.record o).prototype with
      | none => []
      | some p => chainUpTo h fuel p

/-- The object and those it inherits from; prototypes never form a cycle. -/
def chain (h : Heap) (o : Nat) : List Nat := h.chainUpTo h.records.size o

/-- The property under a key on the object or the nearest object it inherits from. -/
def lookup? (h : Heap) (o : Nat) (key : Key) : Option Property :=
  (h.chain o).findSome? (h.own? · key)

/-- The object has the property or inherits it. -/
def has (h : Heap) (o : Nat) (key : Key) : Bool := (h.lookup? o key).isSome

/-- What the object holds under a key. -/
def get (h : Heap) (o : Nat) (key : Key) : Value := ((h.lookup? o key).map (·.value)).getD .undefined

/-- The own keys, in the order in which they were added. -/
def ownKeys (h : Heap) (o : Nat) : List Key := (h.record o).properties.map Prod.fst

/-! ### Writing -/

/-- Assigns a property. -/
def set (h : Heap) (o : Nat) (key : Key) (value : Value) : Bool × Heap :=
  let r := h.record o
  match r.find? key with
  | some p =>
    if p.writable then
      (true, h.putRecord o { r with properties := Record.replace key { p with value := value } r.properties })
    else (false, h)
  | none =>
    let locked := (r.prototype.bind fun p => h.lookup? p key).any fun p => !p.writable
    if locked || !r.extensible then (false, h)
    else (true, h.putRecord o { r with properties := r.properties ++ [(key, { value := value })] })

/-- The property may be redefined as another. -/
def Property.allows (old new : Property) : Bool :=
  old.configurable ||
    (!new.configurable && new.enumerable == old.enumerable && (old.writable || !new.writable) &&
      (old.writable || new.value.same old.value))

/-- Defines or redefines an own property. -/
def define (h : Heap) (o : Nat) (key : Key) (p : Property) : Bool × Heap :=
  let r := h.record o
  match r.find? key with
  | some old =>
    if Property.allows old p then
      (true, h.putRecord o { r with properties := Record.replace key p r.properties })
    else (false, h)
  | none =>
    if r.extensible then (true, h.putRecord o { r with properties := r.properties ++ [(key, p)] })
    else (false, h)

/-- Removes an own property; it is done also when there is none. -/
def delete (h : Heap) (o : Nat) (key : Key) : Bool × Heap :=
  let r := h.record o
  match r.find? key with
  | some p =>
    if p.configurable then (true, h.putRecord o { r with properties := Record.without key r.properties })
    else (false, h)
  | none => (true, h)

/-- Changes the prototype, unless the object is sealed or would inherit from itself. -/
def setPrototype (h : Heap) (o : Nat) (prototype : Option Nat) : Bool × Heap :=
  let r := h.record o
  if r.prototype = prototype then (true, h)
  else if !r.extensible then (false, h)
  else if prototype.any fun p => (h.chain p).contains o then (false, h)
  else (true, h.putRecord o { r with prototype := prototype })

/-- Lets no property be added any more. -/
def preventExtensions (h : Heap) (o : Nat) : Heap :=
  h.putRecord o { h.record o with extensible := false }

/-! ### Making objects -/

/-- An object with some properties, assigned in order. -/
def ofEntries (h : Heap) (entries : List (Key × Value)) : Nat × Heap :=
  let (o, h) := h.addRecord {}
  (o, entries.foldl (fun h (k, v) => (h.set o k v).2) h)

/-- The bindings of a module, of equal keys the last value. -/
def bindings (entries : List (Key × Value)) : List (Key × Property) :=
  entries.foldl
    (fun all (k, v) =>
      let p : Property := { value := v, configurable := false }
      if (all.lookup k).isSome then Record.replace k p all else all ++ [(k, p)])
    []

/-- The record of a module's exports: its bindings can be assigned but not removed, and none added. -/
def moduleRecord (entries : List (Key × Value)) : Record where
  properties := bindings entries ++ [(.tag, Property.frozen (.text "Module"))]
  extensible := false

mutual

/-- The value of a JSON value; arrays become objects whose keys are the positions. -/
def ofJson (h : Heap) : Json → Value × Heap
  | .null => (.null, h)
  | .bool b => (.bool b, h)
  | .number n => (.number n.toFloat, h)
  | .text s => (.text s, h)
  | .array items =>
    let (entries, h) := ofItems h 0 items
    let (o, h) := h.ofEntries entries
    (.object o, h)
  | .object members =>
    let (entries, h) := ofMembers h members
    let (o, h) := h.ofEntries entries
    (.object o, h)

/-- The properties of array items from a position on. -/
def ofItems (h : Heap) (i : Nat) : List Json → List (Key × Value) × Heap
  | [] => ([], h)
  | item :: rest =>
    let (v, h) := ofJson h item
    let (entries, h) := ofItems h (i + 1) rest
    ((.text (toString i), v) :: entries, h)

/-- The properties of object members. -/
def ofMembers (h : Heap) : List (String × Json) → List (Key × Value) × Heap
  | [] => ([], h)
  | (k, item) :: rest =>
    let (v, h) := ofJson h item
    let (entries, h) := ofMembers h rest
    ((.text k, v) :: entries, h)

end

end Heap

end ScriptVault
