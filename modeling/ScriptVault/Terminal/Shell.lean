import ScriptVault.Terminal.Show
import ScriptVault.Text.Blank
import ScriptVault.Text.Lines

/-!
# Shell — a session led by lines

A line that begins with a dot is a command; any other line is a specifier, which is loaded as a script.  The
shell has a working directory from which relative specifiers are seen.
-/

namespace ScriptVault.Terminal

/-- The version of the program. -/
def version : String := "0.1.0"

/-- What a line may ask for. -/
inductive Order where
  | help
  | exit
  | clear
  | version
  | require
  | importAs
  | code
  | deps
  | invalidate
  | clearCache
  | cwd
  | files
  deriving DecidableEq, Repr

namespace Order

/-- The order with a name, which is in small letters. -/
def ofName? : String → Option Order
  | "help" | "h" | "?" => some help
  | "exit" | "quit" | "q" => some exit
  | "clear" | "cls" => some clear
  | "version" | "v" => some version
  | "require" | "r" => some require
  | "import" | "i" => some importAs
  | "code" | "c" => some code
  | "deps" | "d" => some deps
  | "invalidate" => some invalidate
  | "clear-cache" => some clearCache
  | "cwd" => some cwd
  | "files" | "ls" => some files
  | _ => none

/-- The names of the orders that need a specifier. -/
def name : Order → String
  | require => "require"
  | importAs => "import"
  | code => "code"
  | deps => "deps"
  | invalidate => "invalidate"
  | _ => ""

/-- The order of a line without blanks around it, and what stands behind its name. -/
def ofLine? (line : List Char) : Option (Order × Option String) :=
  match line with
  | '.' :: rest =>
    let argument := Text.trim (rest.dropWhile (!Text.isBlank ·))
    (ofName? (String.ofList (rest.takeWhile (!Text.isBlank ·))).toLower).map fun order =>
      (order, if argument.isEmpty then none else some (String.ofList argument))
  | _ => none

/-- How orders are written, and what they do. -/
def manual : List (String × String) :=
  [(".help", "Show this help message"),
    (".exit", "Exit the shell"),
    (".clear", "Clear the screen"),
    (".version", "Show version information"),
    (".require <id>", "Load a module with require() (also: bare input)"),
    (".import <id>", "Load a module as an ES module"),
    (".code <id>", "Show the transpiled code of a module"),
    (".deps <id>", "Show the modules a cached module required"),
    (".invalidate <id>", "Evict a module and everything that required it"),
    (".clear-cache", "Evict every cached module"),
    (".cwd [dir]", "Show or set the working directory for relative ids"),
    (".files", "List the files known to the loader")]

/-- What keys do. -/
def shortcuts : List (String × String) :=
  [("Ctrl+C", "Cancel current input"),
    ("Ctrl+D", "Exit the shell"),
    ("Tab", "Complete commands and paths"),
    ("↑/↓", "Navigate history")]

end Order

/-- A shell. -/
structure Shell where
  /-- The session that it leads. -/
  session : Session
  /-- The loader. -/
  loader : Nat
  /-- The directory that relative specifiers are seen from. -/
  cwd : Option String := none
  /-- What it has written. -/
  screen : Screen := {}

namespace Shell

/-- Writes. -/
def display (s : Shell) (f : Screen → Screen) : Shell := { s with screen := f s.screen }

/-- Writes lines. -/
def say (s : Shell) (lines : List String) : Shell := s.display (·.sayAll lines)

/-- A heading. -/
def heading (text : String) : String := Style.bold.paint (Style.white.paint text)

/-- The first lines of a shell. -/
def banner (s : Shell) : List String :=
  ["",
    "  " ++ heading "Spacey Vault" ++ " " ++ Style.dim.paint "v" ++ " " ++
      Style.brightYellow.paint version,
    "  " ++ Style.cyan.paint (toString s.session.paths.length) ++ " " ++
      Style.dim.paint "files known to the loader",
    "  " ++ Style.dim.paint "Type" ++ " " ++ Style.cyan.paint ".help" ++ " " ++
      Style.dim.paint "for available commands",
    ""]

/-- A line of a manual. -/
def manualLine (style : Style) (entry : String × String) : String :=
  "  " ++ style.paint (padded 20 entry.1) ++ " " ++ Style.dim.paint entry.2

/-- The manual. -/
def help : List String :=
  ["", heading "Commands:", ""] ++ Order.manual.map (manualLine .cyan) ++
    ["", heading "Keyboard Shortcuts:", ""] ++ Order.shortcuts.map (manualLine .yellow) ++ [""]

/-- The versions of the program and of the loader. -/
def versions : List String :=
  [Style.bold.paint (Style.brightCyan.paint "spacey-vault") ++ ": " ++ Style.yellow.paint version,
    Style.dim.paint "spacey-modules" ++ ": " ++ version]

/-- Shows what came of a specifier. -/
def answer {α : Type} (s : Shell) (lines : Heap → α → List String)
    (r : Except Failure α × Session) : Shell :=
  let s := { s with session := r.2 }
  match r.1 with
  | .ok a => s.say (lines r.2.host.heap a)
  | .error e => s.display (·.complain (failure e))

/-- Loads a specifier as a script. -/
def require (s : Shell) (id : String) : Shell :=
  s.answer (fun h v => [value h v]) (s.session.require s.loader id s.cwd)

/-- Imports a specifier. -/
def importAs (s : Shell) (id : String) : Shell :=
  s.answer (fun h v => [value h v]) (s.session.importAs s.loader id s.cwd true)

/-- Shows the code that a specifier stands for. -/
def code (s : Shell) (id : String) : Shell :=
  let (found, session) := s.session.codeOf id s.cwd
  s.answer (fun _ r => Terminal.code r) (found.bind (·.elim (.error (.moduleNotFound id)) .ok), session)

/-- A directory without the slashes around it. -/
def directory (text : String) : String :=
  let isSlash (c : Char) : Bool := c == '/'
  String.ofList (Text.dropEndWhile isSlash (text.toList.dropWhile isSlash))

/-- Does what an order asks for; tells whether the shell goes on. -/
def perform (s : Shell) (order : Order) (argument : Option String) : Bool × Shell :=
  match order, argument with
  | .help, _ => (true, s.say help)
  | .exit, _ => (false, s)
  | .clear, _ => (true, s.display (·.write "\x1b[2J\x1b[H"))
  | .version, _ => (true, s.say versions)
  | .require, some id => (true, s.require id)
  | .importAs, some id => (true, s.importAs id)
  | .code, some id => (true, s.code id)
  | .deps, some id => (true, s.say (s.session.outline s.loader id))
  | .invalidate, some id =>
    (true, { s with session := s.session.change (Host.invalidate s.loader id) })
  | .clearCache, _ => (true, { s with session := s.session.change (Host.invalidateAll s.loader) })
  | .cwd, argument =>
    let s := match argument with
      | some dir => { s with cwd := if dir = "/" then none else some (directory dir) }
      | none => s
    (true, s.say [Style.cyan.paint (s.cwd.getD "/")])
  | .files, _ => (true, s.say s.session.paths)
  | order, none =>
    (true, s.display (·.fault
      (Style.cyan.paint order.name ++ " " ++ Style.dim.paint "requires a module id")))

/-- Does what a line asks for; tells whether the shell goes on. -/
def performLine (s : Shell) (line : List Char) : Bool × Shell :=
  let line := Text.trim line
  if line.isEmpty then (true, s)
  else
    match Order.ofLine? line with
    | some (order, argument) => s.perform order argument
    | none =>
      let text := String.ofList line
      if line.head? = some '.' then
        (true, s.display (·.fault ("unknown command '" ++ Style.cyan.paint text ++ "'")))
      else (true, s.require text)

/-- Does what lines ask for, up to one that ends the shell or to their end, which is marked. -/
def follow : List (List Char) → Shell → Shell
  | [], s => s.say [Style.dim.paint "^D"]
  | line :: rest, s =>
    match s.performLine line with
    | (true, s) => follow rest s
    | (false, s) => s

/-- Leads a session by the lines of an input. -/
def run (s : Shell) (input : String) : Shell :=
  (follow (Text.lines input.toList) (s.say s.banner)).say [""]

end Shell

end ScriptVault.Terminal
