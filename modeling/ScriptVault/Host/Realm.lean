import ScriptVault.Host.Start

/-!
# Realm — one loader for each world of scripts

All realms of a host share its resolvers, and each has a loader of its own.  When a realm gets another
loader, the new one goes on with the stream of the old one, so that whoever listens hears of both.
-/

namespace ScriptVault.Host

/-- Adds a loader with a process object of its own. -/
def addLoader (app : Value) (stream : Nat) (held : Bool) (h : Host) : Nat × Host :=
  let (env, heap) := h.heap.ofEntries [(.text "NODE_DEV", .text "production")]
  let (process, heap) := heap.ofEntries [(.text "env", .object env)]
  (h.loaders.length,
    { h with
      heap := heap
      loaders := h.loaders ++ [{ app := app, process := process, stream := stream, held := held }] })

/-- Makes a realm with a loader, and tells both. -/
def createRealm (app : Value) (h : Host) : (Nat × Nat) × Host :=
  let realm := h.nextRealm
  let (l, h) := h.addLoader app realm true
  ((realm, l), { h with realms := h.realms.put realm l, nextRealm := realm + 1 })

/-- Lets a loader follow the resolvers no longer, unless others use it. -/
def release (h : Host) (l : Nat) : Host :=
  h.onLoader l fun loader => if loader.held then loader else { loader with listening := false }

/-- Gives a realm another loader in place of the one it has. -/
def replaceLoader (h : Host) (realm : Nat) : Host :=
  match h.loaderOf? realm with
  | none => h
  | some old =>
    let loader := h.loader old
    let (l, h) := h.addLoader loader.app loader.stream false
    { h with realms := h.realms.put realm l }.release old

/-- Removes the loader of a realm, and tells whether there was one. -/
def teardownRealm (realm : Nat) (h : Host) : Bool × Host :=
  match h.loaderOf? realm with
  | none => (false, h)
  | some l => (true, { h with realms := h.realms.erase realm }.release l)

/-- Evicts all modules of a realm, and tells whether it has a loader. -/
def clearCache (realm : Nat) (h : Host) : Bool × Host :=
  match h.loaderOf? realm with
  | none => (false, h)
  | some l => (true, h.invalidateAll l)

/-! ### Code that runs for notes -/

/-- Lets the working directory of a realm's loader follow the notes at a point; tells the number. -/
def interceptCwd (point : String) (realm : Nat) (h : Host) : Nat × Host :=
  let (id, hooks) := h.hooks.register point h.interceptors.length
  (id, { h with hooks := hooks, interceptors := h.interceptors ++ [{ realm := realm }] })

/-- Changes an interceptor. -/
def onInterceptor (n : Nat) (change : Interceptor → Interceptor) (h : Host) : Host :=
  { h with
    interceptors := h.interceptors.set n (change (h.interceptors.getD n { realm := mainRealm })) }

/-- Tells an interceptor that code runs for a note: its directory becomes the working directory. -/
def beforeNote (note : Option String) (h : Host) (n : Nat) : Host :=
  let l := h.loaderOf? (h.interceptors.getD n { realm := mainRealm }).realm
  let h := h.onInterceptor n fun i => { i with entered := l :: i.entered }
  match l with
  | some l => h.onLoader l (·.enter [note.map Path.directory] [])
  | none => h

/-- Tells an interceptor that the code has run: the loader that was told of the note is told of its end. -/
def afterNote (h : Host) (n : Nat) : Host :=
  match (h.interceptors.getD n { realm := mainRealm }).entered with
  | [] => h
  | l :: rest =>
    let h := h.onInterceptor n fun i => { i with entered := rest }
    match l with
    | some l => h.onLoader l (·.leave 1 0)
    | none => h

end ScriptVault.Host
