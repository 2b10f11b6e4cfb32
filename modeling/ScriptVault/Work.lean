import ScriptVault.Compile.Request
import ScriptVault.Resolver.Remote
import ScriptVault.Script.Rewrite

/-!
# Work — what is under way, and what came of it

Whatever takes time has a number and a description.  What came of it is told under the number.
-/

namespace ScriptVault

/-- A module that is to be evaluated. -/
structure ModuleSource where
  /-- The name of the module. -/
  id : String
  /-- Its code. -/
  code : String
  /-- The declarations that give it the bindings of a script. -/
  «prelude» : Option String
  /-- The object it knows as `process`. -/
  process : Nat
  /-- The value it knows as `app`. -/
  app : Value
  /-- The loader that serves it. -/
  loader : Nat

/-- Something that takes time. -/
inductive Work where
  /-- Loading a module that was resolved, with or without the bindings of a script. -/
  | importing (loader : Nat) (resolved : Resolved) (interop : Bool)
  /-- Evaluating a module. -/
  | evaluating (source : ModuleSource)
  /-- Compiling. -/
  | compiling (request : Compile.Request)
  /-- Loading a remote module, under the number of the load. -/
  | fetching (href : String) (token : Nat)
  /-- Running startup modules again after some nanoseconds. -/
  | reloading (delay : Nat) (ids : List String)
  /-- Running startup modules that did not run, after some nanoseconds. -/
  | starting (delay : Nat) (ids : List String)
  /-- Importing a specifier on behalf of nobody who waits. -/
  | flight (loader : Nat) (specifier : String) (cwd : Option String) (interop : Bool)

/-- What came of work. -/
inductive Outcome where
  /-- A value. -/
  | value (result : Except Failure Value)
  /-- A namespace. -/
  | names (result : Except Failure Nat)
  /-- Code, or none where the source is code already. -/
  | code (result : Except Failure (Option String))
  /-- A remote module. -/
  | remote (result : Except Failure RemoteModule)
  /-- A script whose calls were replaced. -/
  | rewritten (result : Except Failure Script.Rewritten)
  /-- What a specifier stands for. -/
  | resolved (result : Except Failure (Option Resolved))
  /-- A yes or no. -/
  | flag (result : Except Failure Bool)

namespace Outcome

/-- The failure of work that told nothing of the kind that was asked for. -/
def missing {α : Type} : Except Failure α := .error (.config "nothing came of the work")

/-- A value that came of work. -/
def asValue : Option Outcome → Except Failure Value
  | some (value result) => result
  | _ => missing

/-- A namespace that came of work. -/
def asNames : Option Outcome → Except Failure Nat
  | some (names result) => result
  | _ => missing

/-- Code that came of work. -/
def asCode : Option Outcome → Except Failure (Option String)
  | some (code result) => result
  | _ => missing

/-- A remote module that came of work. -/
def asRemote : Option Outcome → Except Failure RemoteModule
  | some (remote result) => result
  | _ => missing

/-- A script that came of work. -/
def asRewritten : Option Outcome → Except Failure Script.Rewritten
  | some (rewritten result) => result
  | _ => missing

/-- What a specifier was found to stand for. -/
def asResolved : Option Outcome → Except Failure (Option Resolved)
  | some (resolved result) => result
  | _ => missing

/-- A yes or no that came of work. -/
def asFlag : Option Outcome → Except Failure Bool
  | some (flag result) => result
  | _ => missing

end Outcome

end ScriptVault
