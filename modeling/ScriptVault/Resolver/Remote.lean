import ScriptVault.Failure
import ScriptVault.Resolver.Basic
import ScriptVault.Table
import ScriptVault.Url.Basic

/-!
# Remote — modules from the network

The network serves a text for some addresses and sends others on.  It may be down, as a whole or for the question where
an address leads.  A remote module goes by its address, and by the addresses that are redirected to it.  At once only
modules that are loaded already can be had; asking for another one leaves a mark, and whoever loads it later announces
it.  A load knows its own number: what it brings counts only while it is still the one that is waited for.
-/

namespace ScriptVault

/-! ### Pages and redirects -/

/-- What the network answers. -/
structure Network where
  /-- The texts that are served. -/
  pages : Table String String := []
  /-- Where addresses lead. -/
  redirects : Table String String := []
  /-- No text can be had. -/
  offline : Bool := false
  /-- It cannot be told where addresses lead. -/
  directionless : Bool := false
  /-- The addresses whose texts were asked for, the last one first. -/
  requests : List String := []

namespace Network

/-- Where an address leads. -/
def destination (n : Network) (href : String) : Except Failure String :=
  if n.directionless then .error (.network href "offline")
  else .ok ((n.redirects.at? href).getD href)

/-- The text of an address. -/
def fetch (n : Network) (href : String) : Except Failure String × Network :=
  if n.offline then (.error (.network href "offline"), n)
  else
    ((n.pages.at? href).elim (.error (.network href "HTTP 404 Not Found")) .ok,
      { n with requests := href :: n.requests })

end Network

/-! ### Remote modules -/

/-- A remote module that is ready to run. -/
structure RemoteModule where
  /-- The number of the load that brought it. -/
  token : Nat
  /-- Its code. -/
  code : String
  /-- The code as a script. -/
  script : String
  deriving DecidableEq, Repr

/-- How far a remote module is. -/
inductive RemoteState where
  /-- It was asked for before it was loaded. -/
  | awaited
  /-- It is being loaded, by the load of a number; what comes of it is told under `work`. -/
  | loading (token work : Nat)
  /-- It is there. -/
  | ready (module : RemoteModule)
  /-- It could not be loaded. -/
  | failed (failure : Failure)

/-- The number of the load behind a state. -/
def RemoteState.token? : RemoteState → Option Nat
  | ready module => some module.token
  | loading token _ => some token
  | awaited => none
  | failed _ => none

/-- What is known of remote modules. -/
structure Remote where
  /-- The addresses that were asked for. -/
  tracked : Names := []
  /-- Where addresses are redirected to. -/
  redirects : Table String String := []
  /-- The modules by their addresses. -/
  modules : Table String RemoteState := []
  /-- The next number of a load. -/
  nextToken : Nat := 0

namespace Remote

/-- Remembers that an address was asked for. -/
def track (r : Remote) (href : String) : Remote := { r with tracked := r.tracked.insert href }

/-- Forgets that an address was asked for, and announces it if it was. -/
def announce (r : Remote) (href : String) : List String × Remote :=
  (if r.tracked.contains href then [href] else [], { r with tracked := r.tracked.erase href })

/-- Forgets all addresses that were asked for, and announces them. -/
def announceAll (r : Remote) : Names × Remote := (r.tracked, { r with tracked := [] })

/-- The address that a specifier means, after known redirects. -/
def address? (r : Remote) (id : String) (cwd : Option String) : Option String :=
  (Url.normalize? id cwd).map fun href => (r.redirects.at? href).getD href

/-- What an address with its module stands for. -/
def resolved (href : String) (module : RemoteModule) : Resolved where
  id := href
  code := module.code
  compiled := some module.script
  cwd := some href

/-- What a specifier stands for at once, where remote modules are `allowed`. -/
def resolve (r : Remote) (allowed : Bool) (id : String) (cwd : Option String) :
    Except Failure (Option Resolved) × Remote :=
  match r.address? id cwd with
  | none => (.ok none, r)
  | some href =>
    let r := r.track href
    if !allowed then (.ok none, r)
    else
      match r.modules.at? href with
      | some (.ready module) => (.ok (some (resolved href module)), r)
      | some (.failed failure) => (.error failure, r)
      | some _ => (.ok none, r)
      | none => (.ok none, { r with modules := r.modules.put href .awaited })

/-- Begins to load an address, under a fresh number. -/
def beginLoad (r : Remote) (href : String) (work : Nat) : Nat × Remote :=
  (r.nextToken,
    { r with
      modules := r.modules.put href (.loading r.nextToken work)
      nextToken := r.nextToken + 1 })

/-- The address is being loaded by the load of a number. -/
def isLoading (r : Remote) (href : String) (token : Nat) : Bool :=
  match r.modules.at? href with
  | some (.loading current _) => current == token
  | _ => false

/-- The address is waited for under this number of work. -/
def isPending (r : Remote) (href : String) (work : Nat) : Bool :=
  match r.modules.at? href with
  | some (.loading _ current) => current == work
  | _ => false

/-- Enters what came of work, if it is still waited for. -/
def endLoad (r : Remote) (href : String) (work : Nat) (result : Except Failure RemoteModule) : Remote :=
  if r.isPending href work then
    { r with
      modules := r.modules.put href
        (match result with
          | .ok module => .ready module
          | .error failure => .failed failure) }
  else r

/-- Lets modules be loaded again that could not be loaded. -/
def online (r : Remote) : Remote :=
  { r with
    modules := r.modules.map fun (href, state) =>
      (href, match state with
        | .failed _ => .awaited
        | state => state) }

/-- Forgets an address, or what it is redirected to; tells the load whose code is to be forgotten. -/
def invalidate (r : Remote) (id : String) : List Nat × Remote :=
  let target := (r.redirects.at? id).getD id
  (((r.modules.at? target).bind RemoteState.token?).toList,
    { r with
      tracked := r.tracked.erase id
      redirects := r.redirects.erase id
      modules := r.modules.erase target })

/-- Forgets everything; tells the loads whose code is to be forgotten. -/
def invalidateAll (r : Remote) : List Nat × Remote :=
  (r.modules.filterMap (·.2.token?), { r with tracked := [], redirects := [], modules := [] })

end Remote

end ScriptVault
