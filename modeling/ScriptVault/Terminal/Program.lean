import ScriptVault.Evaluator.Scan
import ScriptVault.Settings.Read
import ScriptVault.Terminal.Options
import ScriptVault.Terminal.Shell

/-!
# Program — a vault looked at from a command line

The program opens a directory as a vault, with settings from a file, and does one task.  Modules are followed
by their literal calls.
-/

namespace ScriptVault.Terminal

/-- What the program ends with. -/
structure Ended where
  /-- Nought unless something went wrong. -/
  status : Nat := 0
  /-- What it has written. -/
  screen : Screen := {}
  deriving DecidableEq, Repr

namespace Ended

/-- The program did its task. -/
def well (screen : Screen) : Ended := { screen := screen }

/-- The program could not do its task. -/
def failed (text : String) : Ended := { status := 1, screen := ({} : Screen).fault text }

/-- The program was not told what to do. -/
def misused (misuse : Misuse) : Ended :=
  { status := 2, screen := ({} : Screen).complain ("error: " ++ misuse.message) }

end Ended

namespace Program

/-- The settings file of a vault that is named by no option. -/
def settingsFile : String := ".spacey-vault.toml"

/-- A path in a directory. -/
def inDirectory (directory name : String) : String :=
  if directory.endsWith "/" then directory ++ name else directory ++ "/" ++ name

/-- The settings in a text that was read from a path. -/
def settingsOf (path : String) (text : Except Failure String) : Except String Settings :=
  let parsed := text.bind fun text =>
    (Settings.read text).mapError fun e => .config (path ++ ": " ++ e.message)
  parsed.mapError fun e => "cannot load settings from " ++ path ++ ": " ++ e.message

/-- The settings: those of the file that an option names, or of the vault's own file, if there is one. -/
def settings (options : Options) (vault : Directory) (read : String → Except Failure String) :
    Except String Settings :=
  match options.config with
  | some path => settingsOf path (read path)
  | none =>
    if vault.isFile settingsFile then
      settingsOf (inDirectory options.vault settingsFile) (vault.read settingsFile)
    else .ok {}

/-- Opens a vault. -/
def start (options : Options) (vault : Directory) (read : String → Except Failure String) :
    Except String Session := do
  let settings ← settings options vault read
  let session ← (Session.build Scan.evaluator { vault := .directory vault, settings := settings }).mapError
    fun e => "cannot set up the module loader: " ++ e.message
  return session.start

/-- Does a task; a loader serves it. -/
def perform (task : Task) (s : Session) (loader : Nat) (input : String) : Except String Screen :=
  let shown (r : Except Failure Value × Session) : Except String Screen := do
    let v ← r.1.mapError Failure.message
    return ({} : Screen).say (value r.2.host.heap v)
  match task with
  | .require id cwd => shown (s.require loader id cwd)
  | .importAs id cwd interop => shown (s.importAs loader id cwd interop)
  | .code id cwd => do
    match ← (s.codeOf id cwd).1.mapError Failure.message with
    | some r => return ({} : Screen).sayAll (code r)
    | none => throw ("cannot find module '" ++ id ++ "'")
  | .deps id =>
    let (r, s) := s.require loader id none
    match r with
    | .ok _ => return ({} : Screen).sayAll (s.outline loader id)
    | .error e => throw e.message
  | .files => return ({} : Screen).sayAll s.paths
  | .shell => return (Shell.run { session := s, loader := loader } input).screen

/-- Does what options ask for, in a vault; `read` tells the text of a file outside it. -/
def run (options : Options) (vault : Directory) (read : String → Except Failure String)
    (input : String) : Ended :=
  let done : Except String Screen := do
    let s ← start options vault read
    match s.host.loaderOf? Host.mainRealm with
    | some loader => perform options.task s loader input
    | none => throw "the main realm has no loader"
  match done with
  | .ok screen => .well screen
  | .error text => .failed text

/-- What a program reads that was started inside its vault. -/
def readInside (vault : Directory) (path : String) : Except Failure String :=
  if path.startsWith "/" then .error (.fileSystem Directory.Refusal.missing.message) else vault.read path

/-- Does what a command line asks for inside a vault. -/
def runInside (args : List String) (vault : Directory) (input : String) : Ended :=
  match Options.read args with
  | .error misuse => .misused misuse
  | .ok options => run options vault (readInside vault) input

end Program

end ScriptVault.Terminal
