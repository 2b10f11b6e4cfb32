import ScriptVault.Text.Blank
import ScriptVault.Text.Lines
import ScriptVault.Yaml.Read

/-!
# Header — what a module says about itself

A script may declare its language and compiler options in a JSON comment on its first line, and a note
under the key `module` of its front matter.  A malformed declaration counts as none.
-/

namespace ScriptVault

/-- What a module declares. -/
structure Header where
  /-- The language it is written in. -/
  language : Option String := none
  /-- Options for the compiler. -/
  options : Option (List (String × Json)) := none

namespace Header

/-- The module is written in TypeScript. -/
def isTypeScript (header : Header) : Bool := header.language == some "TypeScript"

/-- The declaration that a value makes; members of the wrong type are ignored. -/
def ofJson (value : Json) : Header where
  language := (value.member? "language").bind Json.asText?
  options := (value.member? "compilerOptions").bind Json.asMembers?

/-- The first line that is not blank. -/
def firstLine (content : List Char) : List Char := (Text.lines (Text.trimStart content)).headD []

/-- The declaration in the comment on the first line of a script. -/
def ofComment (content : List Char) : Header :=
  match (Text.after? ['/', '/'] (firstLine content)).bind Json.read? with
  | some value => ofJson value
  | none => {}

/-- The lines before the closing line of the front matter. -/
def untilFence : List (List Char) → Option (List Char)
  | [] => none
  | line :: rest =>
    if Text.dropEndWhile (fun c => c == '\r' || c == '\n') line = ['-', '-', '-'] then some []
    else (untilFence rest).map (line ++ ·)

/-- The text between the two lines of dashes at the start of a note. -/
def frontMatter? (content : List Char) : Option (List Char) :=
  let body? := (Text.after? ['-', '-', '-', '\r', '\n'] content).orElse fun _ =>
    Text.after? ['-', '-', '-', '\n'] content
  body?.bind fun body => untilFence (Text.linesWithEnds body)

/-- The declaration in the front matter of a note. -/
def ofFrontMatter (content : List Char) : Header :=
  match ((frontMatter? content).bind Yaml.read?).bind (Json.member? "module") with
  | some value => ofJson value
  | none => {}

end Header

end ScriptVault
