import ScriptVault.Compile.Request
import ScriptVault.Note
import ScriptVault.Table

/-!
# Workshop — compiled code and where it is kept

TypeScript becomes a script at once and a module in the hands of a worker; other sources are left as they are.  What
came of a version of a file or of a remote module is kept under its origin, failures too, until the origin is forgotten,
so that a new version never meets code of an old one.
-/

namespace ScriptVault

/-! ### What is turned into code -/

/-- Where a source comes from. -/
inductive Origin where
  /-- A version of a file, by its token. -/
  | file (token : Nat)
  /-- A load of a remote module, by its number. -/
  | remote (token : Nat)
  deriving DecidableEq, Repr

/-- A text that is to become code. -/
structure Source where
  /-- The text. -/
  content : String
  /-- Where it lies. -/
  path : Option String := none
  /-- What its code is kept under; without it, nothing is kept. -/
  origin : Option Origin := none
  deriving DecidableEq, Repr

namespace Source

/-- The source is a note. -/
def isNote (source : Source) : Bool := source.path.any fun path => Path.extension path == "md"

/-- The script in a note, and what the note declares. -/
def ofNote (settings : Settings) (note : Source) : Source × Header :=
  ({ note with content := Note.script settings note.content }, Note.header note.path note.content)

/-- What the source declares, where `given` replaces what stands in it. -/
def header (source : Source) (given : Option Header) : Header :=
  Compile.headerOf given source.path source.content

end Source

end ScriptVault

namespace ScriptVault.Compile

/-! ### What is kept -/

/-- A module that is kept or being made. -/
inductive Draft where
  /-- The source needs no compiler. -/
  | asIs
  /-- What comes of it is told under this number. -/
  | pending (id : Nat)
  deriving DecidableEq, Repr

/-- A compiler with what it made. -/
structure Workshop where
  /-- The compiler, if there is one. -/
  compiler : Option (Request → Outcome) := none
  /-- The scripts that are kept. -/
  scripts : Table Origin (Except Failure String) := []
  /-- The modules that are kept. -/
  modules : Table Origin Draft := []
  /-- How often the compiler was asked. -/
  compiles : Nat := 0

namespace Workshop

/-- Asks the compiler. -/
def compile (w : Workshop) (request : Request) : Except Failure String × Workshop :=
  match w.compiler with
  | none => (.error (.transpile "no TypeScript compiler is configured"), w)
  | some compiler =>
    ((compiler request).mapError fun diagnostics => .transpile ("\n".intercalate diagnostics),
      { w with compiles := w.compiles + 1 })

/-- The request for a source, if it is in TypeScript. -/
def request? (source : Source) (given : Option Header) (form : Form) : Option Request :=
  let header := source.header given
  if header.isTypeScript then some (Request.of source.content form header) else none

/-- The script that a source becomes; none if it needs no compiler. -/
def script (w : Workshop) (source : Source) (given : Option Header) :
    Except Failure (Option String) × Workshop :=
  match source.origin.bind w.scripts.at? with
  | some kept => (kept.map some, w)
  | none =>
    match request? source given .script with
    | none => (.ok none, w)
    | some request =>
      let (result, w) := w.compile request
      (result.map some,
        match source.origin with
        | some origin => { w with scripts := w.scripts.put origin result }
        | none => w)

/-- The module kept under an origin. -/
def draft? (w : Workshop) (origin : Option Origin) : Option Draft := origin.bind w.modules.at?

/-- Keeps a module under an origin. -/
def keep (w : Workshop) (origin : Option Origin) (draft : Draft) : Workshop :=
  match origin with
  | some origin => { w with modules := w.modules.put origin draft }
  | none => w

/-- Forgets what was made from an origin. -/
def forget (w : Workshop) (origin : Origin) : Workshop :=
  { w with scripts := w.scripts.erase origin, modules := w.modules.erase origin }

end Workshop

end ScriptVault.Compile
