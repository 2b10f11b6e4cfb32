import ScriptVault.Failure

/-!
# Heap — values of scripts and where they live

Texts, numbers and truth values stand for themselves; objects, functions and module facades are places in
a heap.  Places are numbered in the order in which they are made and never given up, so two values are the
same place exactly when their numbers are equal.
-/

namespace ScriptVault

/-- The name of a property. -/
inductive Key where
  | text (name : String)
  /-- The symbol under which an object keeps its tag. -/
  | tag
  deriving DecidableEq, Repr

/-- The text of a key. -/
def Key.name : Key → String
  | text name => name
  | tag => "Symbol(Symbol.toStringTag)"

/-- A value of a script. -/
inductive Value where
  | undefined
  | null
  | bool (b : Bool)
  | number (x : Float)
  | text (s : String)
  /-- The object at a place. -/
  | object (place : Nat)
  /-- The function at a place. -/
  | function (place : Nat)
  /-- The module facade at a place. -/
  | facade (place : Nat)
  deriving Inhabited

/-- A property of an object. -/
structure Property where
  /-- What it holds. -/
  value : Value
  /-- It may be assigned. -/
  writable : Bool := true
  /-- It is listed. -/
  enumerable : Bool := true
  /-- It may be removed and given other flags. -/
  configurable : Bool := true

/-- A property that can be changed but is not listed. -/
def Property.hidden (value : Value) : Property := { value := value, enumerable := false }

/-- A property that nothing can change. -/
def Property.frozen (value : Value) : Property :=
  { value := value, writable := false, enumerable := false, configurable := false }

/-- What is kept of an object. -/
structure Record where
  /-- Its own properties, in the order in which they were added. -/
  properties : List (Key × Property) := []
  /-- The object it inherits from. -/
  prototype : Option Nat := none
  /-- Properties may be added, and the prototype may be changed. -/
  extensible : Bool := true

/-- What a function does when it is called. -/
inductive Body where
  /-- Nothing. -/
  | idle
  /-- Gives the receiver back. -/
  | receiver
  /-- Gives the type of the receiver. -/
  | receiverType
  /-- Gives the arguments, in an object. -/
  | arguments
  /-- Gives a property of the receiver. -/
  | read (key : Key)
  /-- Assigns the first argument to a property of the receiver. -/
  | assign (key : Key)
  /-- Fails. -/
  | fail (reason : String)
  /-- Counts its calls. -/
  | count (counter : String)
  /-- Refuses to be called as anything but a constructor. -/
  | constructOnly
  /-- Calls another function; for the facade as receiver its namespace is put in. -/
  | forward (facade target : Nat)
  deriving DecidableEq

/-- What a function does when it constructs. -/
inductive Build where
  /-- Fails. -/
  | refuse
  /-- Makes an object of the function that is built for and the arguments. -/
  | fields
  /-- Makes an object that names the function that is built for. -/
  | signature
  /-- Lets another function construct; the wrapper is never what is built for. -/
  | forward (target : Nat)
  deriving DecidableEq

/-- What is kept of a function. -/
structure Function where
  /-- Its name. -/
  name : String
  /-- What a call does. -/
  body : Body
  /-- What construction does; a function without it is no constructor. -/
  build : Option Build := none
  deriving DecidableEq

/-- What is kept of a module facade. -/
structure Facade where
  /-- The object that is looked at first, and that all changes go to. -/
  exports : Nat
  /-- The object that is looked at next. -/
  «namespace» : Nat
  /-- The wrappers that were made for functions of the namespace. -/
  wrappers : List (Nat × Nat) := []
  deriving DecidableEq

/-- Everything that values refer to. -/
structure Heap where
  /-- The objects. -/
  records : Array Record := #[]
  /-- The functions. -/
  functions : Array Function := #[]
  /-- The module facades. -/
  facades : Array Facade := #[]
  /-- How often counting functions were called. -/
  counters : List (String × Nat) := []

namespace Heap

/-- The object at a place. -/
def record (h : Heap) (place : Nat) : Record := h.records.getD place {}

/-- The function at a place. -/
def function (h : Heap) (place : Nat) : Function := h.functions.getD place ⟨"", .idle, none⟩

/-- The facade at a place. -/
def facade (h : Heap) (place : Nat) : Facade := h.facades.getD place ⟨0, 0, []⟩

/-- Replaces the object at a place. -/
def putRecord (h : Heap) (place : Nat) (record : Record) : Heap :=
  { h with records := h.records.setIfInBounds place record }

/-- Makes an object. -/
def addRecord (h : Heap) (record : Record) : Nat × Heap :=
  (h.records.size, { h with records := h.records.push record })

/-- Makes a function. -/
def addFunction (h : Heap) (function : Function) : Nat × Heap :=
  (h.functions.size, { h with functions := h.functions.push function })

/-- Makes a facade. -/
def addFacade (h : Heap) (exports «namespace» : Nat) : Nat × Heap :=
  (h.facades.size, { h with facades := h.facades.push ⟨exports, «namespace», []⟩ })

/-- Counts once more under a name. -/
def tick (h : Heap) (counter : String) : Heap :=
  { h with counters := bump h.counters }
where
  /-- The counters with one more under the name. -/
  bump : List (String × Nat) → List (String × Nat)
    | [] => [(counter, 1)]
    | (k, n) :: rest => if k = counter then (k, n + 1) :: rest else (k, n) :: bump rest

/-- How often a name was counted. -/
def count (h : Heap) (counter : String) : Nat := (h.counters.lookup counter).getD 0

end Heap

/-- Two values are the same: equal, but that a number that is none is itself and zeros differ in sign. -/
def Value.same : Value → Value → Bool
  | undefined, undefined => true
  | null, null => true
  | bool a, bool b => a == b
  | number a, number b =>
    (a.isNaN && b.isNaN) || (a == b && Decimal.isNegative a == Decimal.isNegative b)
  | text a, text b => a == b
  | object a, object b => a == b
  | function a, function b => a == b
  | facade a, facade b => a == b
  | _, _ => false

/-- The type of a value. -/
def Value.typeName : Value → String
  | undefined => "undefined"
  | null => "object"
  | object _ => "object"
  | facade _ => "object"
  | bool _ => "boolean"
  | number _ => "number"
  | text _ => "string"
  | function _ => "function"

/-- The value is undefined or null. -/
def Value.isNullish : Value → Bool
  | undefined => true
  | null => true
  | _ => false

end ScriptVault
