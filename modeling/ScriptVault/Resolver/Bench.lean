import ScriptVault.Resolver.Files
import ScriptVault.Resolver.Basic

/-!
# Bench — resolvers on their own

A chain of resolvers over a vault in memory, with transpilers that only write letters large; they keep
nothing, so that it shows what the resolvers keep.  How often each transpiler ran and was told to forget is
counted.  The file of a race is written when the next module is about to be made.
-/

namespace ScriptVault

/-- A resolver of a chain. -/
inductive Bench.Link where
  /-- The modules of the host. -/
  | natives
  /-- A file resolver, by its place among them. -/
  | files (n : Nat)
  deriving DecidableEq, Repr

/-- A file that is written while a module is made. -/
structure Bench.Race where
  /-- The transpiler that is about to make it. -/
  transpiler : Nat
  /-- The path of the file. -/
  path : String
  /-- The text of the file. -/
  content : String
  deriving DecidableEq, Repr

/-- A chain of resolvers with what they share. -/
structure Bench where
  /-- The files with their resolvers. -/
  files : Files
  /-- The resolvers in the order in which they are asked. -/
  chain : List Bench.Link := []
  /-- The ending of the paths that each transpiler takes. -/
  endings : List String := []
  /-- The modules of the host. -/
  natives : Natives := {}
  /-- They are lent to scripts. -/
  lent : Bool := true
  /-- How often each transpiler ran. -/
  runs : List Nat := []
  /-- How often each transpiler was told to forget. -/
  dropped : List Nat := []
  /-- The file that is to be written. -/
  race : Option Bench.Race := none
  /-- The ids that were announced. -/
  announced : List String := []

instance : KeepsFiles (StateM Bench) where
  withFiles act := fun b => ((act b.files).1, { b with files := (act b.files).2 })

namespace Bench

/-! ### Building -/

/-- A chain from the names of its resolvers. -/
def ofNames (names : List String) : List Link × List FileResolver :=
  names.foldl
    (fun (chain, files) name =>
      match strategy? name with
      | some strategy => (chain ++ [.files files.length], files ++ [{ strategy := strategy }])
      | none => (chain ++ [.natives], files))
    ([], [])
where
  /-- The strategy of a name. -/
  strategy? : String → Option Strategy
    | "relative" => some .relative
    | "vault" => some .absolute
    | "wikilink" => some .wikilink
    | "markdown" => some .markdown
    | _ => none

/-! ### Changes -/

/-- Lets all transpilers forget an origin; they keep none. -/
def forget (b : Bench) : Bench := { b with dropped := b.dropped.map (· + 1) }

/-- Does what a change of the files asks for. -/
def absorb (b : Bench) (change : Ripple × Files) : Bench :=
  change.1.forgotten.foldl (fun b _ => b.forget)
    { b with files := change.2, announced := b.announced ++ change.1.announced }

/-- The vault. -/
def vault (b : Bench) : MemoryVault :=
  match b.files.vault with
  | .memory v => v
  | .directory _ => {}

/-- Takes over a changed vault, and follows the change unless it is `silent`. -/
def adopt (b : Bench) (change : Change) (vault : MemoryVault) (silent : Bool) : Bench :=
  let b := { b with files := { b.files with vault := .memory vault } }
  if silent then b else b.absorb (b.files.follow change)

/-- Lets all resolvers forget an id. -/
def invalidate (b : Bench) (id : String) : Bench :=
  let natives := if b.chain.contains .natives then b.natives.invalidate id else b.natives
  { b with natives := natives }.absorb (b.files.invalidate id)

/-- Lets all resolvers forget everything. -/
def invalidateAll (b : Bench) : Bench :=
  let natives := if b.chain.contains .natives then b.natives.invalidateAll.2 else b.natives
  { b with natives := natives }.absorb b.files.invalidateAll

/-- Lends the modules of the host to scripts or not, and announces all that were asked for. -/
def lend (b : Bench) (lent : Bool) : Bench :=
  let (ids, natives) := b.natives.invalidateAll
  { b with
    lent := lent
    natives := natives
    announced := b.announced ++ (if b.chain.contains .natives then ids else []) }

/-! ### Resolving -/

/-- Writes the file of a race with a transpiler. -/
def runRace (transpiler : Nat) (b : Bench) : Bench :=
  match b.race with
  | some race =>
    if race.transpiler = transpiler then
      let (change, vault) := b.vault.write race.path race.content
      { b with race := none }.adopt change vault false
    else b
  | none => b

/-- Writes a source in large letters. -/
def shout (transpiler : Nat) (ending : String) (form : Compile.Form) (source : Source) :
    ExceptT Failure (StateM Bench) (Option String) := do
  if form = .module then modify (runRace transpiler)
  if !(source.path.getD "").endsWith ending then return none
  modify fun b =>
    { b with runs := b.runs.set transpiler (b.runs.getD transpiler 0 + 1) }
  if Text.has "@@error".toList source.content.toList then throw (.transpile "cannot shout")
  let code := String.ofList (source.content.toList.map Char.toUpper)
  return some (if form = .module then code ++ " /*a*/" else code)

/-- The transpilers. -/
def transpilers (b : Bench) (form : Compile.Form) : Transpilers (StateM Bench) where
  row := b.endings.zipIdx.map fun (ending, n) => shout n ending form
  forget _ := modify forget

/-- Asks a resolver of the chain. -/
def ask (t : Transpilers (StateM Bench)) (form : Compile.Form) (id : String) (context : Context) :
    Link → ExceptT Failure (StateM Bench) (Option Resolved)
  | .natives => modifyGet fun b =>
    let (found, natives) := b.natives.resolve b.lent id
    (found, { b with natives := natives })
  | .files n =>
    match form with
    | .script => Files.resolve t n id context
    | .module => Files.resolveLater t n id context

/-- What a specifier stands for as a script or a module. -/
def resolve (b : Bench) (form : Compile.Form) (id : String) (context : Context) :
    Except Failure (Option Resolved) × Bench :=
  (firstAnswer (b.chain.map (ask (b.transpilers form) form id context))).run b

end Bench

end ScriptVault
