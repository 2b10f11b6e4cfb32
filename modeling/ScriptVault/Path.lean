import ScriptVault.Text.Pieces

/-!
# Path — places in the vault

A vault path is a `/`-separated list of segments that starts at the vault's root.  `normalize`
tidies the separators, `fold` also resolves `.` and `..`, and a step up from the root stays at the root,
so a folded path never leaves the vault.
-/

namespace ScriptVault.Path

/-- Both slashes separate segments. -/
def isSeparator (c : Char) : Bool := c == '/' || c == '\\'

/-- The non-empty segments of a path. -/
def segments (path : List Char) : List (List Char) :=
  (Text.pieces isSeparator path).filter (!·.isEmpty)

/-- Segments written as a path. -/
def ofSegments (segments : List (List Char)) : List Char := Text.join ['/'] segments

/-- One segment taken on the way from the root; the way so far is kept innermost first. -/
def step (way : List (List Char)) (segment : List Char) : List (List Char) :=
  if segment = ['.'] then way
  else if segment = ['.', '.'] then way.tail
  else segment :: way

/-- The segments that are left once `.` and `..` are resolved. -/
def resolve (segments : List (List Char)) : List (List Char) := (segments.foldl step []).reverse

/-- The path with single `/` separators and none at its ends. -/
def normalize (path : String) : String := String.ofList (ofSegments (segments path.toList))

/-- The segments of the folded path. -/
def foldedSegments (path : String) : List (List Char) := resolve (segments path.toList)

/-- The path with `.` and `..` resolved. -/
def fold (path : String) : String := String.ofList (ofSegments (foldedSegments path))

/-- The directory of a path: all its segments but the last. -/
def directory (path : String) : String := String.ofList (ofSegments (foldedSegments path).dropLast)

/-- What follows the last `/`. -/
def fileName (path : String) : String :=
  String.ofList ((Text.pieces (· == '/') path.toList).getLastD [])

/-- A name cut at its last dot; a dot in first place does not count. -/
def cutExtension (name : List Char) : List Char × List Char :=
  match (Text.pieces (· == '.') name).reverse with
  | extension :: piece :: pieces =>
    let stem := Text.join ['.'] (piece :: pieces).reverse
    if stem.isEmpty then (name, []) else (stem, extension)
  | _ => (name, [])

/-- The extension of the file name, without its dot. -/
def extension (path : String) : String := String.ofList (cutExtension (fileName path).toList).2

/-- The file name without its extension. -/
def stem (path : String) : String := String.ofList (cutExtension (fileName path).toList).1

/-- A specifier seen from a directory. -/
def inDirectory (directory specifier : String) : String := directory ++ "/" ++ specifier

end ScriptVault.Path
