import ScriptVault.Host.Resolve
import ScriptVault.Script.Frame

/-!
# Later — specifiers that may take their time

The same resolvers are asked in the same order, but files may be read, compilers work in the background and
remote modules are loaded.  A remote module is loaded once at a time, by all who ask for it together.
Before it is handed out the modules that it loads are loaded too, except for those that are on their way
already: so modules that load each other do not wait for each other.
-/

namespace ScriptVault.Host

/-! ### Modules from sources -/

/-- Gives the next number to work. -/
def fresh : Async Host Work Nat := Async.step number

/-- Compiles, in the hands of a worker, and tells what came of it. -/
def compiling (id : Nat) (request : Compile.Request) : Async Host Work Unit :=
  Async.offload fun h =>
    let (result, workshop) := h.workshop.compile request
    { h with workshop := workshop }.tell id (.code (result.map some))

/-- What came of compiling. -/
def compiled (id : Nat) : Errand (Option String) :=
  ExceptT.mk (Async.view fun h => Outcome.asCode (h.outcome? id))

/-- Begins to make a module from a source, and keeps it under the source's origin. -/
def draft (source : Source) (request : Compile.Request) : Async Host Work Nat := do
  let id ← fresh
  Async.change fun h => { h with workshop := h.workshop.keep source.origin (.pending id) }
  Async.share id (.compiling request)
  return id

/-- Waits for a module that is being made. -/
def drafted (id : Nat) : Errand (Option String) := do
  (Async.await id : Async Host Work Unit)
  compiled id

/-- Compiles a source in TypeScript to a module; one with an origin is compiled once, by all who ask for it
together. -/
def moduleOf (source : Source) (given : Option Header) : Errand (Option String) := do
  match ← (Async.view fun h => h.workshop.draft? source.origin : Async Host Work _) with
  | some .asIs => return none
  | some (.pending id) => drafted id
  | none =>
    match Compile.Workshop.request? source given .module with
    | none =>
      (Async.change fun h => { h with workshop := h.workshop.keep source.origin .asIs }
        : Async Host Work Unit)
      return none
    | some request =>
      if source.origin.isSome then
        drafted (← (draft source request : Async Host Work Nat))
      else
        let id ← (fresh : Async Host Work Nat)
        (compiling id request : Async Host Work Unit)
        compiled id

/-- Turns a note into a module. -/
def moduleOfNote (source : Source) : Errand (Option String) := do
  if source.isNote then
    let (script, header) := source.ofNote (← (Async.view (·.settings) : Async Host Work _))
    return some ((← moduleOf script (some header)).getD script.content)
  else return none

/-- The transpilers that make modules. -/
def transpilersLater : Transpilers (Async Host Work) where
  row := [moduleOfNote, fun source => moduleOf source none]
  forget origin := Async.change (·.forget origin)

/-! ### Remote modules -/

/-- The declaration that every remote module is taken to have: TypeScript that becomes a script. -/
def remoteHeader : Header where
  language := some "TypeScript"
  options := some [("module", .text "CommonJS")]

/-- Announces a remote address if it was asked for. -/
def announceRemote (href : String) (h : Host) : Host :=
  let (ids, remote) := h.remote.announce href
  ids.foldl announce { h with remote := remote }

/-- Where an address leads as the network has it, which is kept; an address that it cannot tell leads to itself. -/
def askNetwork (href : String) (h : Host) : String × Host :=
  match h.network.destination href with
  | .error _ => (href, h)
  | .ok target =>
    let h := h.announceRemote href
    (target, { h with remote := { h.remote with redirects := h.remote.redirects.put href target } })

/-- The address that a specifier means in the end; a redirect is asked for once. -/
def destination (id : String) (cwd : Option String) : Async Host Work (Option String) :=
  match Url.normalize? id cwd with
  | none => pure none
  | some href => do
    match ← Async.view fun h => h.remote.redirects.at? href with
    | some target => return some target
    | none =>
      Async.consult
      return some (← Async.step (askNetwork href))

/-- What an address needs before it can be handed out. -/
inductive Claim where
  /-- Nothing: it is there or has failed, or it is on its way and is not waited for. -/
  | settled (result : Except Failure (Option RemoteModule))
  /-- The work of this number. -/
  | pending (work : Nat)
  /-- The work of this number, which is to be started, for the load of a number. -/
  | begun (work token : Nat)

/-- What an address needs; `wait` tells whether a load under way is waited for. -/
def claimRemote (href : String) (wait : Bool) (h : Host) : Claim × Host :=
  let begin_ (h : Host) : Claim × Host :=
    let (work, h) := h.number
    let (token, remote) := h.remote.beginLoad href work
    (.begun work token, { h with remote := remote })
  match h.remote.modules.at? href with
  | some (.ready module) => (.settled (.ok (some module)), h)
  | some (.failed failure) => (.settled (.error failure), h)
  | some (.loading _ work) => (if wait then .pending work else .settled (.ok none), h)
  | some .awaited =>
    let (claim, h) := begin_ h
    (claim, h.announceRemote href)
  | none => begin_ h

/-- Waits for a load, and enters what came of it. -/
def loaded (href : String) (work : Nat) : Errand (Option (String × RemoteModule)) := do
  (Async.await work : Async Host Work Unit)
  let module ← ExceptT.mk (Async.step fun h =>
    let result := Outcome.asRemote (h.outcome? work)
    (result, { h with remote := h.remote.endLoad href work result }))
  return some (href, module)

/-- Loads what a specifier means; `wait` tells whether a load under way is waited for. -/
def fetchRemote (id : String) (cwd : Option String) (wait : Bool) :
    Errand (Option (String × RemoteModule)) := do
  let some href ← (destination id cwd : Async Host Work _) | return none
  match ← (Async.step (claimRemote href wait) : Async Host Work _) with
  | .settled (.error failure) => throw failure
  | .settled (.ok module) => return module.map (href, ·)
  | .pending work => loaded href work
  | .begun work token =>
    (Async.share work (.fetching href token) : Async Host Work Unit)
    loaded href work

/-- What a specifier in a remote module is replaced by: its address, unless the host lends the module. -/
def remoteTarget (h : Host) (lent : Bool) (base specifier : String) : Option String :=
  if lent && h.natives.has specifier then none else Url.normalize? specifier (some base)

/-- Replaces the calls of a remote module, in the hands of a worker. -/
def rewriting (id : Nat) (settings : Settings) (href code : String) : Async Host Work Unit :=
  Async.offload fun h =>
    h.tell id (.rewritten
      (Script.rewrite href code.toList (Script.loaderExpression settings.requireName).toList
        (h.remoteTarget settings.exposeInternalModules href)))

/-- Makes the code of a remote module from its text, and loads the modules that it loads. -/
def prepare (href : String) (token : Nat) (body : String) : Async Host Work RemoteModule := do
  let source : Source := ⟨body, some href, some (.remote token)⟩
  let code := match ← (moduleOf source (some remoteHeader)).run with
    | .ok (some code) => code
    | _ => body
  Async.change fun h =>
    if h.remote.isLoading href token then h else h.forget (.remote token)
  let settings ← Async.view (·.settings)
  let id ← fresh
  rewriting id settings href code
  let code ← match ← Async.view fun h => Outcome.asRewritten (h.outcome? id) with
    | .error _ => pure code
    | .ok rewritten => do
      Async.all (rewritten.requires.map fun url => discard (fetchRemote url none false).run)
      pure rewritten.code
  return ⟨token, code, Script.withSourceUrl code href settings.sourceRoot⟩

/-- Loads a remote module, and tells what came of it. -/
def fetching (id : Nat) (href : String) (token : Nat) : Async Host Work Unit := do
  Async.consult
  let body ← Async.step fun h =>
    let (body, network) := h.network.fetch href
    (body, { h with network := network })
  match body with
  | .error failure => Async.change (tell id (.remote (.error failure)))
  | .ok body =>
    let module ← prepare href token body
    Async.change (tell id (.remote (.ok module)))

/-- Loads some addresses ahead of time, where remote modules are allowed. -/
def preload (hrefs : List String) : Async Host Work Unit := do
  if ← Async.view (·.settings.enableExternalLinks) then
    Async.all (hrefs.map fun href => discard (fetchRemote href none true).run)

/-! ### The resolvers -/

/-- Remembers that a specifier was asked for, and tells whether it may be loaded from the network. -/
def trackRemote (id : String) (cwd : Option String) (h : Host) : Bool × Host :=
  match h.remote.address? id cwd with
  | none => (false, h)
  | some href => (h.settings.enableExternalLinks, { h with remote := h.remote.track href })

/-- Asks the network. -/
def resolveRemoteLater (id : String) (context : Context) : Errand (Option Resolved) := do
  if !(← (Async.step (trackRemote id context.cwd) : Async Host Work Bool)) then return none
  let some (href, module) ← fetchRemote id context.cwd true | return none
  (Async.change fun h => { h with remote := h.remote.track href } : Async Host Work Unit)
  return some (Remote.resolved href module)

/-- What a specifier stands for, where that may take its time. -/
def resolveLater (id : String) (context : Context) : Errand (Option Resolved) :=
  firstAnswer <|
    (liftM (resolveNative id) : Errand _) ::
      (List.range strategies.length).map
        (fun n => Files.resolveLater transpilersLater n id context) ++
      [resolveRemoteLater id context]

end ScriptVault.Host
