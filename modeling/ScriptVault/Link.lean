import ScriptVault.Text.Percent
import ScriptVault.Text.Pieces

/-!
# Link — links between notes

A specifier may be a link: `[display](path "title")` or `[[path|display]]`, either with a `!` before it.
A link is read only when it is the whole text.  Inside brackets a backslash takes the character after it
as it stands, and brackets of the same kind nest.
-/

namespace ScriptVault.Link

/-- A link `[display](path "title")`. -/
structure Markdown where
  /-- The text between the brackets, escapes resolved. -/
  display : String
  /-- The destination, percent escapes resolved. -/
  path : String
  /-- The title as it stands between its quotes, empty when there is none. -/
  title : String
  /-- How many bytes the link takes. -/
  read : Nat
  deriving DecidableEq, Repr

/-- A link `[[path|display]]`. -/
structure Wiki where
  /-- The destination. -/
  path : String
  /-- The text shown, the destination when there is none. -/
  display : String
  deriving DecidableEq, Repr

/-! ### Bracketed components -/

/-- The inside of a component after its opening bracket, and the bytes that it takes with its closing one; `level`
more brackets are open inside. -/
def takeInside? (opening closing : Char) : Nat → List Char → Option (List Char × Nat)
  | _, [] => none
  | level, '\\' :: rest =>
    match rest with
    | [] => none
    | c :: rest =>
      (takeInside? opening closing level rest).map fun (s, n) => (c :: s, '\\'.utf8Size + (c.utf8Size + n))
  | level, c :: rest =>
    if c = opening then
      (takeInside? opening closing (level + 1) rest).map fun (s, n) => (c :: s, c.utf8Size + n)
    else if c = closing then
      match level with
      | 0 => some ([], c.utf8Size)
      | level + 1 => (takeInside? opening closing level rest).map fun (s, n) => (c :: s, c.utf8Size + n)
    else (takeInside? opening closing level rest).map fun (s, n) => (c :: s, c.utf8Size + n)

/-- The inside of the component that a text begins with, and the bytes that the component takes. -/
def takeComponent? (opening closing : Char) : List Char → Option (List Char × Nat)
  | [] => none
  | c :: rest =>
    if c = opening then (takeInside? opening closing 0 rest).map fun (s, n) => (s, c.utf8Size + n) else none

/-! ### Links with a destination in parentheses -/

/-- Every quote stands after a backslash; `escaped` tells it of the character before the text. -/
def quotesEscaped (escaped : Bool) : List Char → Bool
  | [] => true
  | c :: rest => (c != '\x22' || escaped) && quotesEscaped (c == '\\') rest

/-- What stands between the quotes of a title. -/
def title? : List Char → Option (List Char)
  | '\x22' :: rest =>
    match Text.before? ['\x22'] rest with
    | some inside => if quotesEscaped false inside then some inside else none
    | none => none
  | _ => none

/-- The destination and the title that stand between the parentheses. -/
def target? (target : List Char) : Option (List Char × List Char) :=
  match Text.cut? [' '] target with
  | none => some (target, [])
  | some (path, rest) => (title? (rest.dropWhile (· == ' '))).map fun title => (path, title)

/-- The text without a leading exclamation mark, and the bytes of the mark. -/
def cutMark : List Char → List Char × Nat
  | '!' :: rest => (rest, '!'.utf8Size)
  | s => (s, 0)

/-- The markdown link that a text is. -/
def Markdown.read? (text : String) : Option Markdown := do
  let (body, mark) := cutMark text.toList
  let (display, displayed) ← takeComponent? '[' ']' body
  let rest ← Text.fromByte? displayed body
  let (target, targeted) ← takeComponent? '(' ')' rest
  guard (targeted == Text.byteLength rest)
  let (path, title) ← target? target
  let path ← Text.Percent.decode? path
  return ⟨String.ofList display, String.ofList path, String.ofList title, mark + displayed + targeted⟩

/-! ### Links with a destination in brackets -/

/-- The wikilink that a text is. -/
def Wiki.read? (text : String) : Option Wiki := do
  let inside ← Text.after? ['[', '['] (cutMark text.toList).1
  let inside ← Text.before? [']', ']'] inside
  match Text.cut? ['|'] inside with
  | none =>
    guard !inside.isEmpty
    return ⟨String.ofList inside, String.ofList inside⟩
  | some (path, display) =>
    guard !(Text.has [']', ']'] display || display.any fun c => c == '\n' || c == '\r')
    guard !path.isEmpty
    return ⟨String.ofList path, String.ofList display⟩

/-- A destination without the heading or block it points at. -/
def withoutSubpath (path : String) : String := String.ofList (path.toList.takeWhile (· != '#'))

end ScriptVault.Link
