import ScriptVault.Async.Schedule
import ScriptVault.Compile.Workshop
import ScriptVault.Hooks
import ScriptVault.Loader.Basic
import ScriptVault.Resolver.Remote
import ScriptVault.Resolver.Files
import ScriptVault.Resolver.Basic
import ScriptVault.Startup
import ScriptVault.Value.Call
import ScriptVault.Work

/-!
# Basic — a vault with everything that loads its modules

A host holds the vault, the resolvers and the loaders of all realms, and all that scripts have made.  What
it does at once is an `Action`; what may wait is an `Errand`.
-/

namespace ScriptVault

/-- Lets the working directory of a realm's loader follow the notes that code runs for. -/
structure Interceptor where
  /-- The realm. -/
  realm : Nat
  /-- The loaders that were told of a note and not yet of its end, the last one first. -/
  entered : List (Option Nat) := []
  deriving DecidableEq

/-- A vault with everything that loads its modules. -/
structure Host where
  /-- The settings. -/
  settings : Settings := {}
  /-- The files with their resolvers. -/
  files : Files
  /-- The modules of the host. -/
  natives : Natives := {}
  /-- The modules from the network. -/
  remote : Remote := {}
  /-- The compiler. -/
  workshop : Compile.Workshop := {}
  /-- The network. -/
  network : Network := {}
  /-- What scripts have made. -/
  heap : Heap := {}
  /-- All loaders there ever were. -/
  loaders : List Loader := []
  /-- The loader of each realm. -/
  realms : Table Nat Nat := []
  /-- The next number of a realm. -/
  nextRealm : Nat := 0
  /-- The modules that run at the start. -/
  startup : Startup := {}
  /-- The stream whose announcements let startup modules run again. -/
  watched : Option Nat := none
  /-- Who is told of code that runs for notes, by the number of the interceptor. -/
  hooks : Hooks Nat := {}
  /-- The interceptors. -/
  interceptors : List Interceptor := []
  /-- The evicted modules that were announced, each with its stream, the last one first. -/
  announced : List (Nat × String) := []
  /-- Tasks that are to be started. -/
  asked : List (Nat × Work) := []
  /-- What came of work. -/
  outcomes : Table Nat Outcome := []
  /-- The next number of work. -/
  nextWork : Nat := 1
  /-- How often a script was run. -/
  scripts : Nat := 0
  /-- How often a module was evaluated. -/
  modules : Nat := 0

/-- Something that a host does at once; without an answer it went too deep. -/
abbrev Action (α : Type) := ExceptT Failure (StateT Host Option) α

/-- Something for which a host may wait. -/
abbrev Errand (α : Type) := ExceptT Failure (Async Host Work) α

instance : MonadLift (StateT Host Option) (Async Host Work) := ⟨Async.act⟩

instance : MonadLift (ExceptT Failure (StateT Host Option)) (ExceptT Failure (Async Host Work)) :=
  ⟨fun x => ExceptT.mk (Async.act x.run)⟩

instance : KeepsFiles (StateT Host Option) where
  withFiles act := fun h => some ((act h.files).1, { h with files := (act h.files).2 })

instance : MonadStateOf Host (Async Host Work) where
  get := Async.view fun h => h
  set h := Async.change fun _ => h
  modifyGet f := Async.step f

instance : KeepsFiles (Async Host Work) where
  withFiles act := Async.step fun h => ((act h.files).1, { h with files := (act h.files).2 })

namespace Host

/-! ### Loaders -/

/-- A loader. -/
def loader (h : Host) (l : Nat) : Loader := h.loaders.getD l {}

/-- Changes a loader. -/
def onLoader (l : Nat) (change : Loader → Loader) (h : Host) : Host :=
  { h with loaders := h.loaders.set l (change (h.loader l)) }

/-- The loader of a realm. -/
def loaderOf? (h : Host) (realm : Nat) : Option Nat := h.realms.at? realm

/-! ### Announcing

An id that a resolver announces evicts what all listening loaders built on it; each evicted module is
announced on the stream of its loader, and may be a startup module that is to run again. -/

/-- The nanoseconds that are waited before startup modules run again. -/
def reloadDelay : Nat := 1000000000

/-- Gives the next number to work. -/
def number (h : Host) : Nat × Host := (h.nextWork, { h with nextWork := h.nextWork + 1 })

/-- Asks for a task. -/
def ask (h : Host) (work : Work) : Host :=
  { h with asked := h.asked ++ [(h.nextWork, work)], nextWork := h.nextWork + 1 }

/-- Lets a startup module run again that was evicted, or requests it no longer. -/
def startupEvicted (h : Host) (id : String) : Host :=
  if !h.settings.startupModules.contains id then h
  else if h.settings.autoReloadStartupModules then h.ask (.reloading reloadDelay [id])
  else { h with startup := (h.startup.unload [id]).2 }

/-- Announces an evicted module on a stream. -/
def emit (stream : Nat) (h : Host) (id : String) : Host :=
  let h := { h with announced := (stream, id) :: h.announced }
  if h.watched = some stream then h.startupEvicted id else h

/-- Lets a loader evict modules, and announces them. -/
def evicting (l : Nat) (act : Loader → List String × Loader) (h : Host) : Host :=
  let (evicted, loader) := act (h.loader l)
  evicted.foldl (emit loader.stream) { h with loaders := h.loaders.set l loader }

/-- Evicts a module from a loader. -/
def evict (id : String) (h : Host) (l : Nat) : Host := evicting l (·.evict id) h

/-- The loaders that follow what the resolvers announce, in the order in which they came. -/
def listeners (h : Host) : List Nat :=
  (h.loaders.zipIdx.filter fun (loader, _) => loader.listening).map Prod.snd

/-- Tells all listening loaders of an id whose resolution may have changed. -/
def announce (h : Host) (id : String) : Host := h.listeners.foldl (evict id) h

/-- Lets the transpilers forget what they made from an origin. -/
def forget (h : Host) (origin : Origin) : Host := { h with workshop := h.workshop.forget origin }

/-- Does what a change of the files asks for. -/
def absorb (h : Host) (change : Ripple × Files) : Host :=
  let h := change.1.forgotten.foldl (fun h token => h.forget (.file token)) { h with files := change.2 }
  change.1.announced.foldl announce h

/-! ### Outcomes -/

/-- Tells what came of work. -/
def tell (id : Nat) (outcome : Outcome) (h : Host) : Host :=
  { h with outcomes := h.outcomes.put id outcome }

/-- What came of work. -/
def outcome? (h : Host) (id : Nat) : Option Outcome := h.outcomes.at? id

end Host

end ScriptVault
