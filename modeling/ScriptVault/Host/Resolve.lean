import ScriptVault.Host.Basic

/-!
# Resolve — specifiers at once

The resolvers are asked in this order: the modules of the host, files seen from the working directory, files
seen from the root, the two kinds of links, and the network.  Notes and TypeScript are turned into scripts.
-/

namespace ScriptVault.Host

/-- The strategies of the file resolvers, in the order in which they are asked. -/
def strategies : List Strategy := [.relative, .absolute, .wikilink, .markdown]

/-! ### Scripts from sources -/

/-- Compiles a source in TypeScript to a script. -/
def scriptOf (source : Source) (given : Option Header) : Action (Option String) :=
  ExceptT.mk fun h =>
    let (result, workshop) := h.workshop.script source given
    some (result, { h with workshop := workshop })

/-- Turns a note into a script. -/
def scriptOfNote (source : Source) : Action (Option String) := do
  if source.isNote then
    let (script, header) := source.ofNote (← get).settings
    return some ((← scriptOf script (some header)).getD script.content)
  else return none

/-- The transpilers that make scripts. -/
def transpilers : Transpilers (StateT Host Option) where
  row := [scriptOfNote, fun source => scriptOf source none]
  forget origin := modify (·.forget origin)

/-! ### The resolvers -/

/-- Asks the modules of the host. -/
def resolveNative (id : String) : Action (Option Resolved) :=
  modifyGet fun h =>
    let (found, natives) := h.natives.resolve h.settings.exposeInternalModules id
    (found, { h with natives := natives })

/-- Asks the network's modules that are loaded. -/
def resolveRemote (id : String) (context : Context) : Action (Option Resolved) :=
  ExceptT.mk fun h =>
    let (found, remote) := h.remote.resolve h.settings.enableExternalLinks id context.cwd
    some (found, { h with remote := remote })

/-- What a specifier stands for at once. -/
def resolve (id : String) (context : Context) : Action (Option Resolved) :=
  firstAnswer <|
    resolveNative id ::
      (List.range strategies.length).map (fun n => Files.resolve transpilers n id context) ++
      [resolveRemote id context]

/-! ### Forgetting -/

/-- Lets the transpilers forget what they made from remote modules. -/
def forgetLoads (h : Host) (tokens : List Nat) : Host :=
  tokens.foldl (fun h token => h.forget (.remote token)) h

/-- Lets all resolvers forget an id. -/
def forgetId (id : String) (h : Host) : Host :=
  let h := { h with natives := h.natives.invalidate id }
  let h := h.absorb (h.files.invalidate id)
  let (tokens, remote) := h.remote.invalidate id
  { h with remote := remote }.forgetLoads tokens

/-- Lets all resolvers forget everything. -/
def forgetAll (h : Host) : Host :=
  let h := { h with natives := h.natives.invalidateAll.2 }
  let h := h.absorb h.files.invalidateAll
  let (tokens, remote) := h.remote.invalidateAll
  { h with remote := remote }.forgetLoads tokens

/-- Evicts a module from a loader, and lets the resolvers forget it. -/
def invalidate (l : Nat) (id : String) (h : Host) : Host := (evict id h l).forgetId id

/-- Evicts all modules from a loader, and lets the resolvers forget everything. -/
def invalidateAll (l : Nat) (h : Host) : Host :=
  (evicting l (fun loader =>
    let (ids, graph) := loader.graph.clear
    (ids, { loader with graph := graph })) h).forgetAll

/-! ### Changes -/

/-- Follows a change of the vault. -/
def follow (change : Change) (h : Host) : Host := h.absorb (h.files.follow change)

/-- Announces all modules of the host that were asked for. -/
def refreshNatives (h : Host) : Host :=
  let (ids, natives) := h.natives.invalidateAll
  ids.foldl announce { h with natives := natives }

/-- Makes all scripts of notes anew. -/
def languagesChanged (h : Host) : Host := h.absorb (h.files.transpilerChanged 0)

end ScriptVault.Host
