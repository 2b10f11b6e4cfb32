import ScriptVault.Failure
import ScriptVault.Table

/-!
# Graph — which module was built on which

A module requires specifiers, and a specifier stands for the module that it was last resolved to.  When a
module is invalidated, every module that was built on it goes too; the walk follows from a module the
modules that required any of its names.
-/

namespace ScriptVault

/-- What is known of modules; `Slots` is what is kept for a module that is loaded. -/
structure Graph (Slots : Type) where
  /-- What is kept for each loaded module. -/
  cache : Table String Slots := []
  /-- The module that each specifier stands for. -/
  aliased : Table String String := []
  /-- The names of each module that specifiers stand for, its own among them. -/
  aliases : Table String Names := []
  /-- The specifiers that each module required. -/
  dependencies : Table String Names := []
  /-- The modules that required each specifier. -/
  dependants : Table String Names := []

namespace Graph

variable {Slots : Type}

/-- The names in a table under a key. -/
def namesAt (t : Table String Names) (key : String) : Names := (t.at? key).getD []

/-- Adds a name in a table under a key. -/
def addName (t : Table String Names) (key name : String) : Table String Names :=
  t.put key ((namesAt t key).insert name)

/-- Removes a name from a table under a key, where there is anything. -/
def dropName (t : Table String Names) (key name : String) : Table String Names :=
  match t.at? key with
  | some names => t.put key (Names.erase names name)
  | none => t

/-- Records that a module required a specifier. -/
def depend (g : Graph Slots) (parent specifier : String) : Graph Slots :=
  { g with
    dependencies := addName g.dependencies parent specifier
    dependants := addName g.dependants specifier parent }

/-- Lets a specifier stand for a module; tells the module that it stood for before, if another. -/
def assign (g : Graph Slots) (raw canonical : String) : Option String × Graph Slots :=
  let names := ((g.aliases.at? canonical).getD [canonical]).insert raw
  let moved :=
    { g with
      aliased := g.aliased.put raw canonical
      aliases := g.aliases.put canonical names }
  match g.aliased.at? raw with
  | some previous =>
    if previous = canonical then (none, moved)
    else (some previous, { moved with aliases := dropName moved.aliases previous raw })
  | none => (none, moved)

/-- The names of a module. -/
def aliasesOf (g : Graph Slots) (id : String) : Names := (g.aliases.at? id).getD [id]

/-- The names of everything that required a name. -/
def callersOf (g : Graph Slots) (id : String) : List String :=
  (namesAt g.dependants id).flatMap g.aliasesOf

/-- Drops what is kept of a name, and the specifiers it required. -/
def evict (g : Graph Slots) (id : String) : Graph Slots :=
  match g.dependencies.at? id with
  | none => { g with cache := g.cache.erase id }
  | some specifiers =>
    { g with
      cache := g.cache.erase id
      dependencies := g.dependencies.put id []
      dependants := specifiers.foldl (fun t s => dropName t s id) g.dependants }

/-- Evicts the names in a queue and, behind them, all that was built on each; `visited` are the names
evicted so far. -/
def evictAll : Nat → List String → List String → Graph Slots → List String × Graph Slots
  | 0, _, visited, g => (visited, g)
  | _ + 1, [], visited, g => (visited, g)
  | fuel + 1, id :: queue, visited, g =>
    if visited.contains id then evictAll fuel queue visited g
    else
      let g := g.evict id
      evictAll fuel (queue ++ g.callersOf id) (visited ++ [id]) g

/-- How many names a walk may take from its queue: each name brings in its callers once. -/
def walkBound (g : Graph Slots) (start : List String) : Nat :=
  start.length + 1 +
    ((start ++ g.aliases.flatMap (·.2) ++ g.dependants.flatMap (·.2)).eraseDups.map fun id =>
      (g.callersOf id).length).foldr (· + ·) 0

/-- Evicts a module and all that was built on it, and tells the names in the order of the walk. -/
def invalidate (g : Graph Slots) (id : String) : List String × Graph Slots :=
  let canonical := (g.aliased.at? id).getD id
  let start := g.aliasesOf canonical
  evictAll (g.walkBound start) start [] g

/-- Forgets everything, and tells the modules that were loaded. -/
def clear (g : Graph Slots) : Names × Graph Slots := (Names.ofList g.cache.keys, {})

/-- What is kept for a module. -/
def slots? (g : Graph Slots) (id : String) : Option Slots := g.cache.at? id

end Graph

end ScriptVault
