import ScriptVault.Compile.Command
import ScriptVault.Host.Realm

/-!
# Apply — building a host, and changing its settings

The size of the pool of workers and the compile command are looked at only when the host is built; all
other settings take effect when they are applied.  Settings that the loader cannot work with are refused
and change nothing.
-/

namespace ScriptVault.Host

/-- What a host is built from. -/
structure Parts where
  /-- The vault. -/
  vault : Vault
  /-- The settings. -/
  settings : Settings := {}
  /-- The heap that the values below live in. -/
  heap : Heap := {}
  /-- What scripts of the main realm know as `app`. -/
  app : Value := .undefined
  /-- The values that the host lends to scripts. -/
  natives : List (String × Value) := []
  /-- The compiler; without one, the command in the settings is used. -/
  compiler : Option (Compile.Request → Compile.Outcome) := none
  /-- The network. -/
  network : Network := {}

/-- The compiler that a command is. -/
def commandCompiler? : List String → Option (Compile.Request → Compile.Outcome)
  | [] => none
  | program :: args => some (Compile.Command.compile program args)

/-- Builds a host with its main realm. -/
def build (parts : Parts) : Except Failure Host := do
  parts.settings.check
  let rules ← parts.settings.rules
  let host : Host :=
    { settings := parts.settings
      files :=
        { vault := parts.vault
          snapshot := { rules := rules }
          resolvers := strategies.map fun strategy => { strategy := strategy } }
      natives := parts.natives.foldl (fun n (id, v) => n.register id v) {}
      workshop :=
        { compiler := parts.compiler.orElse fun _ => commandCompiler? parts.settings.typescriptCommand }
      network := parts.network
      heap := parts.heap }
  return (host.createRealm parts.app).2

/-- How many compilations may run side by side. -/
def workers (settings : Settings) : Nat := max 1 settings.workerThreads

/-- How much a pool may let run side by side: `2 ^ 61 - 1`. -/
def poolLimit : Nat := 0x1FFFFFFFFFFFFFFF

/-- How much a pool of some size lets run side by side; none can be made beyond the limit. -/
def pool? (size : Nat) : Option Nat :=
  let size := max 1 size
  if size ≤ poolLimit then some size else none

/-- Announces all remote addresses that were asked for. -/
def refreshRemote (h : Host) : Host :=
  let (ids, remote) := h.remote.announceAll
  ids.foldl announce { h with remote := remote }

/-- Does what changed settings ask of files and the modules of the host. -/
def applyLocal (old : Settings) (rules : Rules) (h : Host) : Host :=
  let new := h.settings
  let h := if old.preloadingRules = new.preloadingRules then h else h.absorb (h.files.setRules rules)
  let h := if old.codeBlockLanguages = new.codeBlockLanguages then h else h.languagesChanged
  if old.exposeInternalModules = new.exposeInternalModules then h else h.refreshNatives

/-- Does what changed settings ask of remote modules. -/
def applyRemote (old new : Settings) : Async Host Work Unit := do
  if old.enableExternalLinks = new.enableExternalLinks then
    preload (new.preloadedExternalLinks.filter (!old.preloadedExternalLinks.contains ·))
  else
    Async.change refreshRemote
    preload (← Async.view (·.settings.preloadedExternalLinks))

/-- Does what changed settings ask of the loaders. -/
def applyLoaders (old new : Settings) (h : Host) : Host :=
  if old.requireName = new.requireName then h else h.realms.keys.foldl replaceLoader h

/-- Does what changed settings ask of the startup modules. -/
def applyStartup (old new : Settings) : Async Host Work Unit := do
  if old.startupModules ≠ new.startupModules then
    Async.change fun h =>
      (h.unloadStartup (old.startupModules.filter (!new.startupModules.contains ·))).2
    if new.autoReloadStartupModules then
      Async.spawn (← fresh) (.starting reloadDelay new.startupModules)
  if new.autoReloadStartupModules && !old.autoReloadStartupModules then
    discard (loadStartup 0 new.startupModules)

/-- Replaces the settings, and does what their changes ask for. -/
def applySettings (new : Settings) : Errand Unit := do
  let rules ← ExceptT.mk (pure do
    new.check
    new.rules)
  let old ← (Async.step fun h => (h.settings, { h with settings := new }) : Async Host Work Settings)
  (Async.change (applyLocal old rules) : Async Host Work Unit)
  (applyRemote old new : Async Host Work Unit)
  (Async.change (applyLoaders old new) : Async Host Work Unit)
  (applyStartup old new : Async Host Work Unit)

/-- Lets remote modules be loaded again that could not be loaded. -/
def online (h : Host) : Host := { h with remote := h.remote.online }

end ScriptVault.Host
