/-!
# Context — where a specifier is seen from

Two stacks tell for whom a module is loaded: the working directories and the modules that are being
evaluated.  A guard remembers how many entries it pushed and takes as many off again.
-/

namespace ScriptVault

/-- The stacks, the innermost entry last. -/
structure Context where
  /-- Working directories; an entry without one marks a module that has none. -/
  cwds : List (Option String) := []
  /-- The modules being evaluated. -/
  parents : List String := []
  deriving DecidableEq, Repr

namespace Context

/-- The innermost working directory. -/
def cwd (c : Context) : Option String := c.cwds.getLast?.join

/-- The innermost module being evaluated. -/
def parent (c : Context) : Option String := c.parents.getLast?

/-- Pushes a working directory. -/
def pushCwd (c : Context) (cwd : Option String) : Context := { c with cwds := c.cwds ++ [cwd] }

/-- Pushes a module. -/
def pushParent (c : Context) (id : String) : Context := { c with parents := c.parents ++ [id] }

/-- Takes entries off both stacks. -/
def pop (c : Context) (cwds parents : Nat) : Context where
  cwds := c.cwds.take (c.cwds.length - cwds)
  parents := c.parents.take (c.parents.length - parents)

end Context

end ScriptVault
