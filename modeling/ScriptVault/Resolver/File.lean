import ScriptVault.Resolver.Basic
import ScriptVault.Link
import ScriptVault.Snapshot

/-!
# File — modules in files

A file resolver finds the path that a specifier means by one strategy, and keeps the code of each path
together with the versions of the files that the module was built on.  Code is kept only for the version it
was made from; when a version that it was built on is no longer current it is made anew.
-/

namespace ScriptVault

/-- How a specifier tells a path. -/
inductive Strategy where
  /-- Seen from the working directory. -/
  | relative
  /-- Seen from the root of the vault. -/
  | absolute
  /-- As a link in double brackets. -/
  | wikilink
  /-- As a link with a text and a target. -/
  | markdown
  deriving DecidableEq, Repr

/-- The path that a specifier means. -/
def Strategy.path? (snapshot : Snapshot) (id : String) (cwd : String) : Strategy → Option String
  | relative => some (Path.fold (Path.inDirectory cwd id))
  | absolute => some (Path.fold id)
  | wikilink =>
    (Link.Wiki.read? id).bind fun link => snapshot.destination? (Link.withoutSubpath link.path) cwd
  | markdown =>
    (Link.Markdown.read? id).bind fun link => snapshot.destination? (Link.withoutSubpath link.path) cwd

/-- The code of a path. -/
structure Entry where
  /-- The version that it was made from. -/
  token : Nat
  /-- The script. -/
  script : Option String := none
  /-- The module. -/
  module : Option String := none
  /-- The versions that the module was built on. -/
  dependencies : List Nat := []
  deriving DecidableEq, Repr

/-- The code in one of the two forms. -/
def Entry.code (entry : Entry) : Compile.Form → Option String
  | .script => entry.script
  | .module => entry.module

/-- Keeps code in one of the two forms. -/
def Entry.withCode (entry : Entry) (code : String) : Compile.Form → Entry
  | .script => { entry with script := some code }
  | .module => { entry with module := some code }

/-- What a file resolver keeps. -/
structure FileResolver where
  /-- How it finds paths. -/
  strategy : Strategy
  /-- The specifiers and paths that it was asked for. -/
  tracked : Names := []
  /-- The code of each path. -/
  entries : Table String Entry := []
  /-- The versions that each transpiler made code from. -/
  transpiled : Table Nat (List Nat) := []

/-- What a change asks of others. -/
structure Ripple where
  /-- The ids whose resolution may have changed. -/
  announced : List String := []
  /-- The versions whose code the transpilers are to forget. -/
  forgotten : List Nat := []

/-- One ripple after another. -/
def Ripple.append (a b : Ripple) : Ripple := ⟨a.announced ++ b.announced, a.forgotten ++ b.forgotten⟩

instance : Append Ripple := ⟨Ripple.append⟩

namespace FileResolver

/-! ### What was asked for -/

/-- Remembers that an id was asked for. -/
def track (r : FileResolver) (id : String) : FileResolver := { r with tracked := r.tracked.insert id }

/-- Forgets that an id was asked for, and announces it if it was. -/
def announce (r : FileResolver) (id : String) : List String × FileResolver :=
  (if r.tracked.contains id then [id] else [], { r with tracked := r.tracked.erase id })

/-! ### Code that is kept -/

/-- The code that is kept for a version, and whether it was dropped because it was built on versions that
are no longer current. -/
def lookup (r : FileResolver) (snapshot : Snapshot) (identity : Identity) (form : Compile.Form) :
    (Option String × Bool) × FileResolver :=
  match r.entries.at? identity.path with
  | none => ((none, false), r)
  | some entry =>
    if entry.token ≠ identity.token then ((none, false), r)
    else if entry.dependencies.all snapshot.isCurrent then ((entry.code form, false), r)
    else ((none, true), { r with entries := r.entries.erase identity.path })

/-- Keeps the code of a version. -/
def store (r : FileResolver) (identity : Identity) (code : String) (form : Compile.Form) :
    FileResolver :=
  let fresh : Entry := { token := identity.token }
  let entry := match r.entries.at? identity.path with
    | some entry => if entry.token = identity.token then entry else fresh
    | none => fresh
  { r with entries := r.entries.put identity.path (entry.withCode code form) }

/-- Remembers that a transpiler made code from a version. -/
def noteTranspiled (r : FileResolver) (transpiler token : Nat) : FileResolver :=
  { r with
    transpiled := r.transpiled.put transpiler
      (((r.transpiled.at? transpiler).getD []).insert token) }

/-- Remembers that a module was built on a version. -/
def depend (r : FileResolver) (parent : String) (token : Nat) : FileResolver :=
  { r with
    entries := r.entries.update parent fun entry =>
      { entry with dependencies := entry.dependencies.insert token } }

/-! ### What is forgotten -/

/-- Forgets that code was made from a version. -/
def forgetToken (r : FileResolver) (token : Nat) : FileResolver :=
  { r with transpiled := r.transpiled.map fun (n, tokens) => (n, tokens.erase token) }

/-- Follows a change of a path's version. -/
def follow (r : FileResolver) (notice : Notice) : Ripple × FileResolver :=
  let r := { r with entries := r.entries.erase notice.path }
  let forgotten := (notice.previous.map (·.token)).toList
  let (announced, r) := (forgotten.foldl forgetToken r).announce notice.path
  (⟨announced, forgotten⟩, r)

/-- Announces ids one after another. -/
def announceAll (r : FileResolver) : List String → List String × FileResolver
  | [] => ([], r)
  | id :: rest =>
    let (first, r) := r.announce id
    let (more, r) := announceAll r rest
    (first ++ more, r)

/-- Drops all that a transpiler made, which would make other code now. -/
def transpilerChanged (r : FileResolver) (transpiler : Nat) : Ripple × FileResolver :=
  match r.transpiled.at? transpiler with
  | none => ({}, r)
  | some tokens =>
    let isStale (entry : Entry) := tokens.contains entry.token
    let paths := Names.ofList ((r.entries.filter fun (_, entry) => isStale entry).map Prod.fst)
    let (announced, r) := announceAll
      { r with
        transpiled := r.transpiled.erase transpiler
        entries := r.entries.filter fun (_, entry) => !isStale entry } paths
    (⟨announced, tokens⟩, r)

/-- Forgets an id. -/
def invalidate (r : FileResolver) (snapshot : Snapshot) (id : String) : List Nat × FileResolver :=
  let forgotten := ((snapshot.get? id).map (·.token)).toList
  (forgotten,
    forgotten.foldl forgetToken
      { r with tracked := r.tracked.erase id, entries := r.entries.erase id })

/-- Forgets everything. -/
def invalidateAll (r : FileResolver) : List Nat × FileResolver :=
  ((r.entries.map (·.2.token) ++ r.transpiled.flatMap (·.2)).eraseDups,
    { r with tracked := [], entries := [], transpiled := [] })

end FileResolver

/-- What a path with its code stands for. -/
def Resolved.ofFile (path code : String) (cache : Bool) : Resolved where
  id := path
  code := code
  cache := cache
  cwd := some (Path.directory path)

end ScriptVault
