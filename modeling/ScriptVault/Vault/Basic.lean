import ScriptVault.Failure
import ScriptVault.Path
import ScriptVault.Table
import ScriptVault.Vault.Directory

/-!
# Basic — where files come from

The loader lists files, asks whether there is one, and reads it; a vault in memory and a directory answer alike.  In
memory, paths are normalized when files are written.  Every change tells the event that it is, and the event is told
also where nothing changed, so that whoever follows the events can look for itself.
-/

namespace ScriptVault

/-! ### A vault that is kept in memory -/

/-- A change of the files. -/
inductive Change where
  | created (path : String)
  | modified (path : String)
  | deleted (path : String)
  | renamed (source target : String)
  deriving DecidableEq, Repr

/-- Files with their texts, in the order of their paths. -/
structure MemoryVault where
  /-- The texts of the files. -/
  texts : List (String × String) := []
  deriving DecidableEq, Repr

namespace MemoryVault

/-- The texts with one file added or replaced, in the order of the paths. -/
def place (path text : String) : List (String × String) → List (String × String)
  | [] => [(path, text)]
  | (p, t) :: rest =>
    if p = path then (path, text) :: rest
    else if path < p then (path, text) :: (p, t) :: rest
    else (p, t) :: place path text rest

/-- The paths of all files. -/
def files (v : MemoryVault) : List String := v.texts.map Prod.fst

/-- The text of a file. -/
def text? (v : MemoryVault) (path : String) : Option String := Table.at? v.texts path

/-- There is a file under exactly this path. -/
def isFile (v : MemoryVault) (path : String) : Bool := (v.text? path).isSome

/-- Reads a file. -/
def read (v : MemoryVault) (path : String) : Except Failure String :=
  match v.text? path with
  | some text => .ok text
  | none => .error (.fileSystem ("no such vault file: " ++ path))

/-- Creates or replaces a file. -/
def write (v : MemoryVault) (path text : String) : Change × MemoryVault :=
  let path := Path.normalize path
  (if v.isFile path then .modified path else .created path, ⟨place path text v.texts⟩)

/-- Deletes a file, if it is there. -/
def remove (v : MemoryVault) (path : String) : Change × MemoryVault :=
  let path := Path.normalize path
  (.deleted path, ⟨Table.erase v.texts path⟩)

/-- Moves a file, if it is there; a file at the target is replaced. -/
def rename (v : MemoryVault) (source target : String) : Change × MemoryVault :=
  let source := Path.normalize source
  let target := Path.normalize target
  (.renamed source target,
    match v.text? source with
    | some text => ⟨place target text (Table.erase v.texts source)⟩
    | none => v)

/-- A vault with some files, written one after another. -/
def ofFiles (files : List (String × String)) : MemoryVault :=
  files.foldl (fun v (path, text) => (v.write path text).2) {}

end MemoryVault

/-! ### Either kind of vault -/

/-- The files of a vault. -/
inductive Vault where
  /-- Kept in memory. -/
  | memory (v : MemoryVault)
  /-- Kept in a directory. -/
  | directory (d : Directory)

namespace Vault

/-- The paths of all files. -/
def files : Vault → List String
  | memory v => v.files
  | directory d => d.listed

/-- There is a file under the path. -/
def isFile : Vault → String → Bool
  | memory v => v.isFile
  | directory d => d.isFile

/-- Reads a file. -/
def read : Vault → String → Except Failure String
  | memory v => v.read
  | directory d => d.read

end Vault

end ScriptVault
