import ScriptVault.Header
import ScriptVault.Path
import ScriptVault.Settings

/-!
# Note — the script in a note

A note is a script with prose around it.  `Note.script` puts every line into a comment, but for the bodies
of the code blocks in the languages that count as code; no line is added or lost.
-/

namespace ScriptVault.Note

/-- A line as a comment. -/
def comment (line : List Char) : List Char := '/' :: '/' :: ' ' :: line

/-- A character of the fence around a code block. -/
def isFence (c : Char) : Bool := c == '\x60' || c == '~'

/-- The fence that opens a code block, and the language after it. -/
def opening? (line : List Char) : Option (List Char × List Char) :=
  let fence := line.takeWhile isFence
  if 3 ≤ fence.length then some (fence, line.dropWhile isFence) else none

/-- The code block that a line stands in. -/
structure Block where
  /-- The fence that opened it; a line that begins with it closes the block. -/
  fence : List Char
  /-- Its body is code. -/
  isCode : Bool
  deriving DecidableEq, Repr

/-- The block after a line, and the line as it stands in the script. -/
def step (isCode : List Char → Bool) (block : Option Block) (line : List Char) :
    Option Block × List Char :=
  match block with
  | some block =>
    if (Text.after? block.fence line).isSome then (none, comment line)
    else (some block, if block.isCode then line else comment line)
  | none =>
    ((opening? line).map fun (fence, language) => ⟨fence, isCode language⟩, comment line)

/-- The lines of the script, from a line that stands in a given block on. -/
def scriptLines (isCode : List Char → Bool) (block : Option Block) :
    List (List Char) → List (List Char)
  | [] => []
  | line :: rest =>
    let (block, out) := step isCode block line
    out :: scriptLines isCode block rest

/-- The script in a note. -/
def script (settings : Settings) (content : String) : String :=
  let isCode (language : List Char) := settings.loadsLanguage (String.ofList language)
  String.ofList (Text.join ['\n'] (scriptLines isCode none (Text.cutLines content.toList)))

/-- The language of a note without a declaration is told by its name. -/
def isNamedTypeScript (path : String) : Bool :=
  let stem := (Path.stem path).toList
  Text.endsWith ".ts".toList stem || Text.endsWith ".mts".toList stem

/-- What a note declares, or else its name. -/
def header (path : Option String) (content : String) : Header :=
  let declared := Header.ofFrontMatter content.toList
  if declared.language.isNone && path.any isNamedTypeScript then
    { declared with language := some "TypeScript" }
  else declared

end ScriptVault.Note
