import ScriptVault.Host.Apply

/-!
# Session — a host that runs

A session has a host with an evaluator, and lets it do things one after another: each runs to its end, and
then all tasks run until they wait for time.
-/

namespace ScriptVault

/-- A host that runs. -/
structure Session where
  /-- What runs the code of modules. -/
  evaluator : Evaluator
  /-- The host with its tasks. -/
  running : Schedule Host Work

namespace Session

/-- The host. -/
def host (s : Session) : Host := s.running.state

/-- Changes the host without letting anything run. -/
def touch (s : Session) (f : Host → Host) : Session :=
  { s with running := { s.running with state := f s.running.state } }

/-- Lets the host do something. -/
def run {α : Type} (s : Session) (x : Async Host Work α) : Session :=
  { s with running := s.running.run (Host.plan s.evaluator) x }

/-- Changes the host, and lets the tasks run that this asks for. -/
def change (s : Session) (f : Host → Host) : Session := s.run (Async.change f)

/-- Gives the next number to work. -/
def number (s : Session) : Nat × Session :=
  let (n, host) := s.host.number
  (n, s.touch fun _ => host)

/-- Lets the host do something, and tells what came of it. -/
def perform (s : Session) (x : Async Host Work Outcome) : Option Outcome × Session :=
  let (n, s) := s.number
  let s := s.run do
    let outcome ← x
    Async.change (Host.tell n outcome)
  (s.host.outcome? n, s.touch fun h => { h with outcomes := h.outcomes.erase n })

/-- A session with a host that is built and not started. -/
def build (ev : Evaluator) (parts : Host.Parts) : Except Failure Session := do
  let host ← Host.build parts
  return ⟨ev, { state := host, workers := Host.workers parts.settings }⟩

/-- A session with a host that is built and not started, or nothing at all where a pool cannot be made. -/
def launch? (ev : Evaluator) (parts : Host.Parts) : Option (Except Failure Session) :=
  match Host.build parts with
  | .error failure => some (.error failure)
  | .ok host => do
    let workers ← Host.pool? parts.settings.workerThreads
    discard (Host.pool? parts.settings.fetchConcurrency)
    return .ok ⟨ev, { state := host, workers := workers }⟩

/-- Starts the host. -/
def start (s : Session) : Session := s.run Host.start

/-! ### Loading -/

/-- Loads a specifier as a script. -/
def require (s : Session) (l : Nat) (id : String) (cwd : Option String) :
    Except Failure Value × Session :=
  let (outcome, s) := s.perform do
    return .value (← Async.act (Host.require s.evaluator Host.depthLimit l id cwd).run)
  (Outcome.asValue outcome, s)

/-- Imports a specifier. -/
def importAs (s : Session) (l : Nat) (id : String) (cwd : Option String) (interop : Bool) :
    Except Failure Value × Session :=
  let (outcome, s) := s.perform do return .value (← (Host.importAs l id cwd interop).run)
  (Outcome.asValue outcome, s)

/-- Imports some specifiers side by side. -/
def importAll (s : Session) (l : Nat) (ids : List String) (cwd : Option String) (interop : Bool) :
    List (Except Failure Value) × Session :=
  let (numbers, s) := ids.foldl
    (fun (all, (s : Session)) _ =>
      let (n, s) := s.number
      (all ++ [n], s))
    (([] : List Nat), s)
  let s := s.run (Host.importAll l (ids.zip numbers) cwd interop)
  (numbers.map fun n => Outcome.asValue (s.host.outcome? n), s)

/-- Begins to import a specifier, and tells the number under which it ends. -/
def takeOff (s : Session) (l : Nat) (id : String) (cwd : Option String) (interop : Bool) :
    Nat × Session :=
  let (n, s) := s.number
  (n, s.run (Async.spawn n (.flight l id cwd interop)))

/-- Waits for an import that was begun. -/
def land (s : Session) (n : Nat) : Except Failure Value × Session :=
  let s := s.run (Async.join n none)
  (Outcome.asValue (s.host.outcome? n), s)

/-- What a specifier stands for, as a script or a module. -/
def resolve (s : Session) (form : Compile.Form) (id : String) (context : Context) :
    Except Failure (Option Resolved) × Session :=
  let (outcome, s) := s.perform do
    match form with
    | .script => return .resolved (← Async.act (Host.resolve id context).run)
    | .module => return .resolved (← (Host.resolveLater id context).run)
  (Outcome.asResolved outcome, s)

/-- Turns a source into a script or a module, as a note or by what it declares. -/
def transpile (s : Session) (form : Compile.Form) (note : Bool) (source : Source)
    (given : Option Header) : Except Failure (Option String) × Session :=
  let made : Errand (Option String) :=
    match form, note with
    | .script, true => liftM (Host.scriptOfNote source)
    | .script, false => liftM (Host.scriptOf source given)
    | .module, true => Host.moduleOfNote source
    | .module, false => Host.moduleOf source given
  let (outcome, s) := s.perform do return .code (← made.run)
  (Outcome.asCode outcome, s)

/-! ### The host -/

/-- Takes over a changed vault, and follows the change unless it is `silent`. -/
def adopt (s : Session) (change : Change) (vault : MemoryVault) (silent : Bool) : Session :=
  let s := s.touch fun h => { h with files := { h.files with vault := .memory vault } }
  if silent then s else s.change (Host.follow change)

/-- The files in memory. -/
def vault (s : Session) : MemoryVault :=
  match s.host.files.vault with
  | .memory v => v
  | .directory _ => {}

/-- Replaces the settings. -/
def applySettings (s : Session) (settings : Settings) : Except Failure Unit × Session :=
  let (outcome, s) := s.perform do
    return .flag ((← (Host.applySettings settings).run).map fun _ => true)
  ((Outcome.asFlag outcome).map fun _ => (), s)

/-- Changes the languages of code in notes, and makes all scripts of notes anew. -/
def setLanguages (s : Session) (languages : List String) : Session :=
  s.touch fun h =>
    { h with settings := { h.settings with codeBlockLanguages := languages } }.languagesChanged

/-- Runs startup modules that did not run, or, to `renew` them, again; tells whether one of them is new. -/
def startModules (s : Session) (renew : Bool) (delay : Nat) (ids : List String) :
    Except Failure Bool × Session :=
  let (outcome, s) := s.perform do
    return .flag (.ok (← if renew then Host.reloadStartup delay ids else Host.loadStartup delay ids))
  (Outcome.asFlag outcome, s)

/-- Lets some nanoseconds pass. -/
def sleep (s : Session) (nanos : Nat) : Session := s.run (Async.sleep nanos)

/-- Runs a body for a note through a point, in a state that holds a session. -/
def hooked {σ β : Type} (get : σ → Session) (set : σ → Session → σ) (point : String)
    (note : Option String) (body : σ → β × σ) (state : σ) : β × σ :=
  let tell (f : Host → Nat → Host) (state : σ) (n : Nat) : σ :=
    set state ((get state).touch fun h => f h n)
  (get state).host.hooks.run point (tell (Host.beforeNote note)) (tell Host.afterNote) body state

end Session

end ScriptVault
