import ScriptVault.Failure
import ScriptVault.Path

/-!
# Directory — a vault that is a directory

Names that begin with a dot are hidden: they are not listed, though they can be read by their path.
A path is followed segment by segment, so `..` leads out of a directory only where there is one.
-/

namespace ScriptVault

/-- A directory with everything below it. -/
structure Directory where
  /-- The files: the segments of their paths, and their texts. -/
  files : List (List String × String) := []
  /-- The directories: the segments of their paths. -/
  directories : List (List String) := []

namespace Directory

/-- The segments of a path, empty ones among them. -/
def cut (path : String) : List String :=
  (Text.pieces (· == '/') path.toList).map String.ofList

/-- The segments of a path but the empty ones. -/
def names (path : String) : List String := (cut path).filter (· != "")

/-- A directory with some files; a path that ends with a slash is that of a directory. -/
def ofFiles (files : List (String × String)) : Directory where
  files := (files.filter fun (path, _) => !path.endsWith "/").map fun (path, text) => (names path, text)
  directories := files.flatMap fun (path, _) =>
    let all := names path
    let way := if path.endsWith "/" then all else all.dropLast
    (List.range (way.length + 1)).map way.take

/-- The text of a file. -/
def text? (d : Directory) (place : List String) : Option String := d.files.lookup place

/-- There is a directory at a place; the root is one. -/
def isDirectory (d : Directory) (place : List String) : Bool :=
  place.isEmpty || d.directories.contains place

/-- Why a path leads to no text. -/
inductive Refusal where
  | missing
  | noDirectory
  | directory
  | nameTooLong
  deriving DecidableEq, Repr

/-- The system's words for a refusal. -/
def Refusal.message : Refusal → String
  | missing => "No such file or directory (os error 2)"
  | noDirectory => "Not a directory (os error 20)"
  | directory => "Is a directory (os error 21)"
  | nameTooLong => "File name too long (os error 36)"

/-- The longest name, in bytes. -/
def nameMax : Nat := 255

/-- Follows segments from a place. -/
def follow (d : Directory) (place : List String) : List String → Except Refusal (List String)
  | [] => .ok place
  | segment :: rest =>
    if !d.isDirectory place then .error (if (d.text? place).isSome then .noDirectory else .missing)
    else if segment = "" || segment = "." then follow d place rest
    else if segment = ".." then follow d place.dropLast rest
    else if nameMax < segment.utf8ByteSize then .error .nameTooLong
    else
      let next := place ++ [segment]
      if d.isDirectory next || (d.text? next).isSome then follow d next rest else .error .missing

/-- The text that a path leads to. -/
def find (d : Directory) (path : String) : Except Refusal String :=
  match d.follow [] (cut path) with
  | .error refusal => .error refusal
  | .ok place =>
    match d.text? place with
    | some text => .ok text
    | none => .error .directory

/-- The path leads to a file. -/
def isFile (d : Directory) (path : String) : Bool :=
  match d.find path with
  | .ok _ => true
  | .error _ => false

/-- Reads a file. -/
def read (d : Directory) (path : String) : Except Failure String :=
  match d.find path with
  | .ok text => .ok text
  | .error refusal => .error (.fileSystem refusal.message)

/-- The name is hidden. -/
def isHidden (name : String) : Bool := name.startsWith "."

/-- The vault path of a path below the root; hidden names and steps up lead nowhere. -/
def vaultPath? (path : String) : Option String :=
  let segments := (names path).filter (· != ".")
  if path.startsWith "/" || segments.isEmpty || segments.any isHidden then none
  else some ("/".intercalate segments)

/-- The paths of all files that are not hidden. -/
def listed (d : Directory) : List String :=
  ((d.files.map Prod.fst).filter fun segments => !segments.any isHidden).map ("/".intercalate ·)

end Directory

end ScriptVault
