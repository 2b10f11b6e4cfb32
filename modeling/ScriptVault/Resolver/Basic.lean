import ScriptVault.Compile.Workshop
import ScriptVault.Context
import ScriptVault.Table
import ScriptVault.Value.Heap

/-!
# Basic — what a specifier is resolved to

A resolver tells what a specifier stands for as seen from a context, or that it does not know.  Resolvers are asked in
turn, and the first that knows is believed; a failure ends the search.  The first of them is the host itself, which
lends values to scripts under names of its own.  Every name that was asked for is remembered, so that all of them can be
announced when the host starts or stops lending.
-/

namespace ScriptVault

/-- What a specifier stands for. -/
structure Resolved where
  /-- The name of the module. -/
  id : String
  /-- Its code. -/
  code : String := ""
  /-- A script that is run in place of the code, unchecked. -/
  compiled : Option String := none
  /-- A module that was loaded under this name may be used again. -/
  cache : Bool := true
  /-- A value that stands for the module as it is. -/
  value : Option Value := none
  /-- The working directory of the module. -/
  cwd : Option String := none

/-- The first answer among some attempts, which are made in turn. -/
def firstAnswer {m : Type → Type} [Monad m] {α : Type} :
    List (ExceptT Failure m (Option α)) → ExceptT Failure m (Option α)
  | [] => return none
  | attempt :: rest => do
    match ← attempt with
    | some answer => return some answer
    | none => firstAnswer rest

/-! ### Modules of the host -/

/-- The modules of the host. -/
structure Natives where
  /-- The values that are lent. -/
  modules : Table String Value := []
  /-- The names that were asked for. -/
  tracked : Names := []

namespace Natives

/-- Lends a value under a name. -/
def register (n : Natives) (id : String) (value : Value) : Natives :=
  { n with modules := n.modules.put id value }

/-- Takes a value back, and tells whether it was lent. -/
def unregister (n : Natives) (id : String) : Bool × Natives :=
  ((n.modules.at? id).isSome, { n with modules := n.modules.erase id })

/-- The names of the modules. -/
def ids (n : Natives) : Names := Names.ofList n.modules.keys

/-- There is a module of this name. -/
def has (n : Natives) (id : String) : Bool := (n.modules.at? id).isSome

/-- What a name stands for while modules are lent. -/
def resolve (n : Natives) (lent : Bool) (id : String) : Option Resolved × Natives :=
  (if lent then (n.modules.at? id).map fun value => { id := id, value := some value } else none,
    { n with tracked := n.tracked.insert id })

/-- Forgets that a name was asked for. -/
def invalidate (n : Natives) (id : String) : Natives := { n with tracked := n.tracked.erase id }

/-- Forgets all names that were asked for, and tells them. -/
def invalidateAll (n : Natives) : Names × Natives := (n.tracked, { n with tracked := [] })

end Natives

end ScriptVault
