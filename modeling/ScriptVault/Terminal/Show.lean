import ScriptVault.Graph.Outline
import ScriptVault.Host.Session
import ScriptVault.Value.Text

/-!
# Show — values, failures and modules on a terminal

A style is turned on before the text and off after it, by codes that a terminal does not print.  Each sort of value has
its colour; objects and facades are shown by their tag and the names that can be enumerated.
-/

namespace ScriptVault.Terminal

/-! ### Styles -/

/-- A way to show text. -/
inductive Style where
  | bold
  | dim
  | red
  | green
  | yellow
  | blue
  | magenta
  | cyan
  | white
  | brightYellow
  | brightCyan
  deriving DecidableEq, Repr

namespace Style

/-- The number that turns a style on. -/
def on : Style → Nat
  | bold => 1
  | dim => 2
  | red => 31
  | green => 32
  | yellow => 33
  | blue => 34
  | magenta => 35
  | cyan => 36
  | white => 37
  | brightYellow => 93
  | brightCyan => 96

/-- The number that turns a style off; colours go back to that of the terminal. -/
def off : Style → Nat
  | bold => 0
  | dim => 0
  | _ => 39

/-- The code of a number. -/
def code (n : Nat) : String := "\x1b[" ++ toString n ++ "m"

/-- A text in a style. -/
def paint (style : Style) (text : String) : String := code style.on ++ text ++ code style.off

end Style

/-- A text with blanks behind it, up to a width. -/
def padded (width : Nat) (text : String) : String :=
  text ++ String.ofList (List.replicate (width - text.length) ' ')

/-- What a program has written. -/
structure Screen where
  /-- What it answered. -/
  out : String := ""
  /-- What it complained of. -/
  err : String := ""
  deriving DecidableEq, Repr

namespace Screen

/-- Writes an answer. -/
def write (text : String) (s : Screen) : Screen := { s with out := s.out ++ text }

/-- Writes a line of an answer. -/
def say (line : String) (s : Screen) : Screen := s.write (line ++ "\n")

/-- Writes lines of an answer. -/
def sayAll (lines : List String) (s : Screen) : Screen := lines.foldl (fun s line => s.say line) s

/-- Writes a line of complaint. -/
def complain (line : String) (s : Screen) : Screen := { s with err := s.err ++ line ++ "\n" }

/-- Writes a complaint under the word `Error`. -/
def fault (text : String) (s : Screen) : Screen :=
  s.complain (Style.bold.paint (Style.red.paint "Error") ++ ": " ++ text)

end Screen

end ScriptVault.Terminal

namespace ScriptVault

/-! ### What is shown -/

namespace Terminal

/-- A tag with the names behind it, if there are any. -/
def tagged (tag : String) (names : List String) : String :=
  let tag := Style.cyan.paint tag
  if names.isEmpty then tag else tag ++ " \x7b " ++ ", ".intercalate names ++ " \x7d"

/-- The keys that are texts and can be enumerated. -/
def enumerated (own? : Key → Option Property) (keys : List Key) : List String :=
  keys.filterMap fun key =>
    match key with
    | .text name => if (own? key).any (·.enumerable) then some name else none
    | _ => none

/-- A value with its colour. -/
def value (h : Heap) (v : Value) : String :=
  match v with
  | .undefined => Style.dim.paint (Style.blue.paint "undefined")
  | .null => Style.blue.paint "null"
  | .bool _ => Style.yellow.paint (h.display v)
  | .number _ => Style.yellow.paint (h.display v)
  | .text s => Style.green.paint ("'" ++ s ++ "'")
  | .function f => Style.magenta.paint ("[Function: " ++ (h.function f).name ++ "]")
  | .object o => tagged (h.display v) (enumerated (h.own? o) (h.ownKeys o))
  | .facade f => tagged (h.display v) (enumerated (h.facadeOwn? f) (h.facadeKeys f))

/-- A failure; what stands before the first colon names its kind. -/
def failure (e : Failure) : String :=
  match Text.cut? [':'] e.message.toList with
  | some (kind, rest) =>
    Style.bold.paint (Style.red.paint (String.ofList kind)) ++ ":" ++ String.ofList rest
  | none => Style.red.paint e.message

/-- A line of an outline. -/
def entry (e : Graph.Entry) : String :=
  String.ofList (List.replicate (2 * e.depth) ' ') ++
    if e.again then Style.dim.paint e.id ++ " " ++ Style.dim.paint "(seen)"
    else Style.cyan.paint e.id

/-- The code of a module under a comment with its name. -/
def code (r : Resolved) : List String :=
  [Style.dim.paint "//" ++ " " ++ Style.cyan.paint r.id, r.code]

end Terminal

namespace Session

/-- The outline below a specifier, as a loader knows it. -/
def outline (s : Session) (l : Nat) (specifier : String) : List String :=
  ((s.host.loader l).graph.outline specifier).map Terminal.entry

/-- The paths of the files that the loader knows. -/
def paths (s : Session) : Names := s.host.files.snapshot.paths

/-- The module that a specifier stands for when it is seen from a directory. -/
def codeOf (s : Session) (id : String) (cwd : Option String) :
    Except Failure (Option Resolved) × Session :=
  s.resolve .module id { cwds := [cwd] }

end Session

end ScriptVault
