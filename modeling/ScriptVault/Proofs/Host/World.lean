import ScriptVault.Proofs.Host.Exec
import ScriptVault.Proofs.Snapshot.Tokens

/-!
# World — what specifiers stand for, whatever was asked before

A host remembers much of what it was asked for: the specifiers, the code of versions, what came of compiling.
None of this is to show.  A world is the rest, which a load cannot change, and `World.answer` is what a
specifier stands for by the world alone.
-/

namespace ScriptVault

/-- All that decides what a specifier stands for. -/
structure World where
  /-- The settings. -/
  settings : Settings
  /-- The values that are lent. -/
  lent : String → Option Value
  /-- The files as they are known. -/
  snapshot : Snapshot
  /-- The compiler. -/
  compiler : Option (Compile.Request → Compile.Outcome)
  /-- What the network's modules answer. -/
  remote : String → Option String → Except Failure (Option Resolved)

/-- The world of a host. -/
def Host.world (h : Host) : World where
  settings := h.settings
  lent id := if h.settings.exposeInternalModules then h.natives.modules.at? id else none
  snapshot := h.files.snapshot
  compiler := h.workshop.compiler
  remote id cwd := (h.remote.resolve h.settings.enableExternalLinks id cwd).1

namespace World

variable (w : World)

/-! ### Code -/

/-- What a compiler that keeps nothing makes of a source. -/
def compiled (source : Source) (given : Option Header) : Except Failure (Option String) :=
  (({ compiler := w.compiler } : Compile.Workshop).script source given).1

/-- What is compiled of a source: the script in a note, and else the source. -/
def toCompile (source : Source) : Source × Option Header :=
  if source.isNote then ((source.ofNote w.settings).1, some (source.ofNote w.settings).2)
  else (source, none)

/-- The code of a source. -/
def code (source : Source) : Except Failure String :=
  (w.compiled (w.toCompile source).1 (w.toCompile source).2).map (·.getD (w.toCompile source).1.content)

/-- The source of a version of a file. -/
def sourceOf (path content : String) (identity : Identity) : Source :=
  ⟨content, some path, some (.file identity.token)⟩

/-! ### Answers -/

/-- The first answer among some. -/
def first : List (Except Failure (Option Resolved)) → Except Failure (Option Resolved)
  | [] => .ok none
  | .ok none :: rest => first rest
  | answer :: _ => answer

/-- The file that a specifier means to a resolver, with the version and its text. -/
def file? (strategy : Strategy) (id : String) (cwd : Option String) : Option (String × Identity × String) :=
  (strategy.path? w.snapshot id (cwd.getD "")).bind fun path =>
    (w.snapshot.get? path).bind fun identity => identity.content.map fun content => (path, identity, content)

/-- What a specifier stands for as a file. -/
def fileAnswer (strategy : Strategy) (id : String) (cwd : Option String) :
    Except Failure (Option Resolved) :=
  match w.file? strategy id cwd with
  | none => .ok none
  | some (path, identity, content) =>
    (w.code (sourceOf path content identity)).map fun code => some (.ofFile path code true)

/-- What a specifier stands for as a module of the host. -/
def lentAnswer (id : String) : Except Failure (Option Resolved) :=
  .ok ((w.lent id).map fun value => { id := id, value := some value })

/-- What a specifier stands for, seen from a working directory. -/
def answer (id : String) (cwd : Option String) : Except Failure (Option Resolved) :=
  first (w.lentAnswer id :: Host.strategies.map (fun s => w.fileAnswer s id cwd) ++ [w.remote id cwd])

/-- The script of a module. -/
def script (resolved : Resolved) : String := Host.scriptFor w.settings resolved

/-- The calls of a module, or why it cannot be run. -/
def calls (resolved : Resolved) : Except Failure (List Script.Call) := do
  if resolved.compiled.isNone then Script.check resolved.id resolved.code.toList
  Script.calls resolved.id (w.script resolved).toList

/-- Code that is kept for a path is that of the version that it was made from. -/
def EntryTrue (path : String) (entry : Entry) : Prop :=
  entry.token < w.snapshot.nextToken ∧
    ∀ identity content code, w.snapshot.get? path = some identity → identity.content = some content →
      identity.token = entry.token → entry.script = some code →
        w.code (sourceOf path content identity) = .ok code

/-- What is kept of compiling a version is what comes of it. -/
def ScriptTrue (token : Nat) (kept : Except Failure String) : Prop :=
  token < w.snapshot.nextToken ∧
    ∀ path identity content, w.snapshot.get? path = some identity → identity.content = some content →
      identity.token = token →
        w.compiled (w.toCompile (sourceOf path content identity)).1
          (w.toCompile (sourceOf path content identity)).2 = kept.map some

end World

namespace Host

/-! ### What is kept is true -/

/-- What a host keeps of files agrees with its world. -/
structure Kept (h : Host) : Prop where
  /-- There is a resolver for each strategy. -/
  row : h.files.resolvers.map (·.strategy) = strategies
  /-- The versions are told apart by their tokens. -/
  sound : h.files.snapshot.Sound
  /-- The code that is kept is true. -/
  entries : ∀ r ∈ h.files.resolvers, ∀ path entry, r.entries.at? path = some entry →
    h.world.EntryTrue path entry
  /-- What is kept of compiling is true. -/
  scripts : ∀ token kept, h.workshop.scripts.at? (.file token) = some kept → h.world.ScriptTrue token kept

/-- The id was asked for as a file. -/
def Tracked (h : Host) (id : String) : Prop := ∃ r ∈ h.files.resolvers, id ∈ r.tracked

/-- A host was asked for what specifiers stand for, and nothing else. -/
structure Asked (h h' : Host) : Prop where
  /-- Only resolvers, transpilers and the network remember it. -/
  rest : ∃ resolvers tracked remote workshop,
    h' = { h with
      files := { h.files with resolvers := resolvers }
      natives := { h.natives with tracked := tracked }
      remote := remote
      workshop := workshop }
  /-- The world is the same. -/
  world : h'.world = h.world
  /-- There are the same remote modules. -/
  ready : ∀ href module, h'.remote.modules.at? href = some (.ready module) ↔
    h.remote.modules.at? href = some (.ready module)
  /-- What was asked for stays so. -/
  tracked : ∀ id, h.Tracked id → h'.Tracked id
  /-- What is kept stays true. -/
  kept : h.Kept → h'.Kept

theorem Asked.refl (h : Host) : Asked h h := by
  refine ⟨⟨h.files.resolvers, h.natives.tracked, h.remote, h.workshop, rfl⟩, rfl, ?_, ?_, id⟩ <;> simp

theorem Asked.trans {h h' h'' : Host} (a : Asked h h') (b : Asked h' h'') : Asked h h'' := by
  refine ⟨?_, b.world.trans a.world, fun href m => (b.ready href m).trans (a.ready href m),
    fun id hid => b.tracked id (a.tracked id hid), fun hk => b.kept (a.kept hk)⟩
  obtain ⟨_, _, _, _, rfl⟩ := a.rest
  obtain ⟨rs, t, rem, ws, rfl⟩ := b.rest
  exact ⟨rs, t, rem, ws, rfl⟩

theorem Asked.loaders {h h' : Host} (a : Asked h h') : h'.loaders = h.loaders := by
  obtain ⟨_, _, _, _, rfl⟩ := a.rest; rfl

theorem Asked.heap {h h' : Host} (a : Asked h h') : h'.heap = h.heap := by
  obtain ⟨_, _, _, _, rfl⟩ := a.rest; rfl

theorem Asked.snapshot {h h' : Host} (a : Asked h h') : h'.files.snapshot = h.files.snapshot := by
  obtain ⟨_, _, _, _, rfl⟩ := a.rest; rfl

theorem Asked.settings {h h' : Host} (a : Asked h h') : h'.settings = h.settings := by
  obtain ⟨_, _, _, _, rfl⟩ := a.rest; rfl

end Host

end ScriptVault
