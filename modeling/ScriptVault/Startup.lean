import ScriptVault.Table

/-!
# Startup — which modules run at the start

Modules are requested to run once the host is up, and each runs once until it is asked to run again.  Of
several loads that wait, only the last one goes on.
-/

namespace ScriptVault

/-- The modules that run at the start. -/
structure Startup where
  /-- The modules that were requested. -/
  requested : Names := []
  /-- The modules that ran. -/
  loaded : Names := []
  /-- How many loads were begun. -/
  generation : Nat := 0

namespace Startup

/-- Requests modules, and tells whether one of them is new. -/
def request (s : Startup) (ids : List String) : Bool × Startup :=
  (ids.any fun id => !s.requested.contains id,
    { s with requested := ids.foldl Names.insert s.requested })

/-- Begins a load of some modules; tells whether one of them is new, and the number of the load. -/
def begin (s : Startup) (ids : List String) : (Bool × Nat) × Startup :=
  let (added, s) := s.request ids
  let s := { s with generation := s.generation + 1 }
  ((added, s.generation), s)

/-- The requested modules that did not run. -/
def pending (s : Startup) : List String := s.requested.filter (!s.loaded.contains ·)

/-- Counts a module as run. -/
def ran (s : Startup) (id : String) : Startup := { s with loaded := s.loaded.insert id }

/-- Lets modules run again. -/
def renew (s : Startup) (ids : List String) : Startup :=
  { s with loaded := ids.foldl Names.erase s.loaded }

/-- Requests modules no longer, and tells whether one of them was. -/
def unload (s : Startup) (ids : List String) : Bool × Startup :=
  (ids.any s.requested.contains,
    { s with
      requested := ids.foldl Names.erase s.requested
      loaded := ids.foldl Names.erase s.loaded })

end Startup

end ScriptVault
