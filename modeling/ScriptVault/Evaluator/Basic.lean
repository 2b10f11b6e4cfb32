import ScriptVault.Host.Basic

/-!
# Basic — what runs the code

The loader decides what runs and keeps what came of it; an evaluator decides how.  Scripts run at once and
fill an exports object; modules may wait and end with a namespace.  Both load others through the loader
that serves them.
-/

namespace ScriptVault

/-- What a script is run with. -/
structure Scope where
  /-- The name of the module. -/
  id : String
  /-- Its code. -/
  code : String
  /-- The module object, whose exports are what comes of the script. -/
  module : Nat
  /-- The exports to begin with. -/
  exports : Value
  /-- The object it knows as `process`. -/
  process : Nat
  /-- The value it knows as `app`. -/
  app : Value
  /-- The loader that serves it. -/
  loader : Nat

/-- What runs the code of modules; `load` stands for loading a specifier as a script. -/
structure Evaluator where
  /-- Checks the code of a script. -/
  check : (id code : String) → Except Failure Unit
  /-- Runs a script. -/
  runScript : (load : String → Action Value) → Scope → Action Unit
  /-- Evaluates a module to its namespace. -/
  runModule : (load : String → Action Value) → ModuleSource → Errand Nat

end ScriptVault
