import ScriptVault.Resolver.File

/-!
# Files — the file resolvers over one vault

All file resolvers look at the same snapshot of the vault and share the transpilers that make code.  A
transpiler answers with code or passes; the first that does not pass is believed, and a source that all
pass is code as it stands.  Resolving at once needs a file that was read ahead of time, and resolving
later may read the vault.
-/

namespace ScriptVault

/-- A vault with what is known of it. -/
structure Files where
  /-- The files as they are. -/
  vault : Vault
  /-- The files as they are known. -/
  snapshot : Snapshot := {}
  /-- The resolvers. -/
  resolvers : List FileResolver := []

/-- What makes code, in a computation `m`. -/
structure Transpilers (m : Type → Type) where
  /-- The transpilers in the order in which they are asked. -/
  row : List (Source → ExceptT Failure m (Option String))
  /-- Lets all of them forget an origin. -/
  forget : Origin → m Unit

/-- A computation that has files. -/
class KeepsFiles (m : Type → Type) where
  /-- Does something with the files. -/
  withFiles {α : Type} (act : Files → α × Files) : m α

instance {m : Type → Type} [Monad m] [KeepsFiles m] : KeepsFiles (ExceptT Failure m) where
  withFiles act := ExceptT.lift (KeepsFiles.withFiles act)

namespace Files

/-! ### One resolver among all -/

/-- A resolver. -/
def resolver (f : Files) (n : Nat) : FileResolver := f.resolvers.getD n { strategy := .absolute }

/-- Lets a resolver do something, and tells what came of it. -/
def withResolver {α : Type} (n : Nat) (act : Files → FileResolver → α × FileResolver) (f : Files) :
    α × Files :=
  let (a, r) := act f (f.resolver n)
  (a, { f with resolvers := f.resolvers.set n r })

/-- Changes a resolver. -/
def onResolver (n : Nat) (change : FileResolver → FileResolver) (f : Files) : Files :=
  { f with resolvers := f.resolvers.set n (change (f.resolver n)) }

/-- Lets each resolver do something in turn, and collects what it asks of others. -/
def overall (act : FileResolver → Ripple × FileResolver) (f : Files) : Ripple × Files :=
  let done := f.resolvers.map act
  ((done.map Prod.fst).foldl Ripple.append {}, { f with resolvers := done.map Prod.snd })

/-! ### Changes -/

/-- Lets all resolvers follow some notices. -/
def followAll (f : Files) : List Notice → Ripple × Files
  | [] => ({}, f)
  | notice :: rest =>
    let (first, f) := f.overall (·.follow notice)
    let (more, f) := followAll f rest
    (first ++ more, f)

/-- Takes over a snapshot with the notices that led to it. -/
def adopt (f : Files) (next : List Notice × Snapshot) : Ripple × Files :=
  followAll { f with snapshot := next.2 } next.1

/-- Follows a change of the vault. -/
def follow (f : Files) (change : Change) : Ripple × Files := f.adopt (f.snapshot.follow f.vault change)

/-- Looks at the whole vault anew. -/
def rebuild (f : Files) : Ripple × Files := f.adopt (f.snapshot.rebuild f.vault)

/-- Looks at the whole vault anew under other rules. -/
def setRules (f : Files) (rules : Rules) : Ripple × Files := f.adopt (f.snapshot.setRules f.vault rules)

/-- Drops all that a transpiler made. -/
def transpilerChanged (f : Files) (transpiler : Nat) : Ripple × Files :=
  f.overall (·.transpilerChanged transpiler)

/-- Lets all resolvers forget an id. -/
def invalidate (f : Files) (id : String) : Ripple × Files :=
  f.overall fun r =>
    let (forgotten, r) := r.invalidate f.snapshot id
    (⟨[], forgotten⟩, r)

/-- Lets all resolvers forget everything. -/
def invalidateAll (f : Files) : Ripple × Files :=
  f.overall fun r =>
    let (forgotten, r) := r.invalidateAll
    (⟨[], forgotten⟩, r)

/-- Remembers in all resolvers that a module was built on another. -/
def depend (f : Files) (parent dependency : String) : Files :=
  match f.snapshot.get? dependency with
  | none => f
  | some identity => { f with resolvers := f.resolvers.map (·.depend parent identity.token) }

/-! ### Making code -/

variable {m : Type → Type} [Monad m] [KeepsFiles m]

/-- Tells something about the files. -/
def view {α : Type} (f : Files → α) : m α := KeepsFiles.withFiles fun files => (f files, files)

/-- Changes the files. -/
def change (f : Files → Files) : m Unit := KeepsFiles.withFiles fun files => ((), f files)

/-- Remembers that a transpiler made code from an origin. -/
def noteTranspiled (n transpiler : Nat) (origin : Option Origin) : m Unit :=
  match origin with
  | some (.file token) => change (onResolver n (·.noteTranspiled transpiler token))
  | _ => return ()

/-- The code of a source by the transpilers from one on. -/
def codeFrom (n : Nat) (source : Source) :
    Nat → List (Source → ExceptT Failure m (Option String)) → ExceptT Failure m String
  | _, [] => return source.content
  | i, transpiler :: rest => do
    match ← transpiler source with
    | some code =>
      noteTranspiled n i source.origin
      return code
    | none => codeFrom n source (i + 1) rest

/-- The code of a source. -/
def code (t : Transpilers m) (n : Nat) (source : Source) : ExceptT Failure m String :=
  codeFrom n source 0 t.row

/-- Forgets all code that was made from a version. -/
def forgetToken (t : Transpilers m) (n token : Nat) : m Unit := do
  change (onResolver n (·.forgetToken token))
  t.forget (.file token)

/-- The code that a resolver keeps for a version. -/
def lookup (n : Nat) (identity : Identity) (form : Compile.Form) : m (Option String × Bool) :=
  KeepsFiles.withFiles (withResolver n fun f r => r.lookup f.snapshot identity form)

/-- Remembers that an id was asked for. -/
def track (n : Nat) (id : String) : m Unit := change (onResolver n (·.track id))

/-- The path that a specifier means to a resolver. -/
def path? (n : Nat) (id : String) (context : Context) : m (Option String) :=
  view fun f => (f.resolver n).strategy.path? f.snapshot id (context.cwd.getD "")

/-! ### Resolving -/

/-- What a specifier stands for at once. -/
def resolve (t : Transpilers m) (n : Nat) (id : String) (context : Context) :
    ExceptT Failure m (Option Resolved) := do
  track n id
  let some path ← path? n id context | return none
  let some identity ← view (·.snapshot.get? path) | return none
  let some content := identity.content | return none
  track n path
  let (kept, stale) ← lookup n identity .script
  match kept with
  | some code => return some (.ofFile path code true)
  | none =>
    if stale then (forgetToken t n identity.token : m Unit)
    let code ← code t n ⟨content, some path, some (.file identity.token)⟩
    change (onResolver n (·.store identity code .script))
    return some (.ofFile path code !stale)

/-- The module of a file that is not known. -/
def resolveUnknown (t : Transpilers m) (n : Nat) (path : String) :
    ExceptT Failure m (Option Resolved) := do
  match ← view (·.vault.read path) with
  | .error _ => return none
  | .ok content =>
    track n path
    let code ← code t n { content := content, path := some path }
    return some (.ofFile path code false)

/-- The module of a version of a file. -/
def resolveVersion (t : Transpilers m) (n : Nat) (path : String) (identity : Identity) :
    ExceptT Failure m (Option Resolved) := do
  track n path
  let (kept, stale) ← lookup n identity .module
  if let some code := kept then return some (.ofFile path code true)
  if stale then (forgetToken t n identity.token : m Unit)
  match ← view fun f => identity.content.elim (f.vault.read path) .ok with
  | .error _ => return none
  | .ok content =>
    let code ← code t n ⟨content, some path, some (.file identity.token)⟩
    if ← view (·.snapshot.isCurrent identity.token) then
      change (onResolver n (·.store identity code .module))
      return some (.ofFile path code !stale)
    else
      (forgetToken t n identity.token : m Unit)
      return some (.ofFile path code false)

/-- What a specifier stands for, where the vault may be read and transpilers may take their time. -/
def resolveLater (t : Transpilers m) (n : Nat) (id : String) (context : Context) :
    ExceptT Failure m (Option Resolved) := do
  track n id
  let some path ← path? n id context | return none
  match ← view (·.snapshot.get? path) with
  | none => resolveUnknown t n path
  | some identity => resolveVersion t n path identity

end Files

end ScriptVault
