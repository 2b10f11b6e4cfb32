import ScriptVault.Failure
import ScriptVault.Json.Read
import ScriptVault.Text.Blank
import ScriptVault.Text.Lines
import ScriptVault.Text.Word

/-!
# Statement — scripts of one statement a line

A small language in which modules can be written without an engine: a line is a statement, which counts,
fails, waits or assigns to the exports, and a value is a JSON value, a binding, a function or what another
module exports.  Blank lines and comments are skipped, and a first line that names an interpreter.
-/

namespace ScriptVault

/-- What a value is made from. -/
inductive Expression where
  /-- A JSON value. -/
  | literal (value : Json)
  | undefined
  /-- The exports that the module began with. -/
  | exports
  /-- The exports that the module has now. -/
  | moduleExports
  | app
  /-- The innermost working directory. -/
  | cwd
  /-- What `process` holds at the end of a path. -/
  | process (path : List String)
  /-- A function that counts its calls under its name. -/
  | counter (name : String)
  /-- A class. -/
  | blueprint (name : String)
  /-- What another module holds at the end of a path. -/
  | load (specifier : String) (path : List String)

/-- What a line does. -/
inductive Statement where
  /-- Counts. -/
  | tick (name : String)
  /-- Fails. -/
  | fail (message : String)
  /-- Waits for some milliseconds. -/
  | sleep (millis : Nat)
  /-- Replaces the exports. -/
  | replaceExports (e : Expression)
  /-- Assigns to what the exports are now. -/
  | assignModule (name : String) (e : Expression)
  /-- Assigns to what the exports were in the beginning. -/
  | assign (name : String) (e : Expression)
  /-- Removes from what the exports were in the beginning. -/
  | remove (name : String)
  /-- Declares a binding of the namespace. -/
  | declare (name : String) (e : Expression)

/-- The statement has a place only in a module. -/
def Statement.needsModule : Statement → Bool
  | sleep _ => true
  | declare .. => true
  | _ => false

namespace Expression

/-! ### Loading others -/

/-- A literal in double quotes, and what follows it. -/
def takeLiteral : List Char → Option (List Char × List Char)
  | '\x22' :: s => (rest s).map fun (inside, s) => ('\x22' :: inside, s)
  | _ => none
where
  /-- The literal after its opening quote. -/
  rest : List Char → Option (List Char × List Char)
    | [] => none
    | '\\' :: c :: s => (rest s).map fun (inside, s) => ('\\' :: c :: inside, s)
    | c :: s =>
      if c == '\x22' then some ([c], s)
      else if c == '\\' then none
      else (rest s).map fun (inside, s) => (c :: inside, s)

/-- A character that begins a name. -/
def startsName (c : Char) : Bool := c.isAlpha || c == '_' || c == '$'

/-- A character inside a name. -/
def continuesName (c : Char) : Bool := Text.isWord c || c == '$'

/-- The names of a path, each with a dot before it. -/
def path? : Nat → List Char → Option (List String)
  | _, [] => some []
  | fuel + 1, '.' :: c :: s =>
    if startsName c then
      (path? fuel (s.dropWhile continuesName)).map
        (String.ofList (c :: s.takeWhile continuesName) :: ·)
    else none
  | _, _ => none

/-- What follows the name of the loader. -/
def afterLoader? (s : List Char) : Option (List Char) :=
  match Text.after? "require".toList s with
  | some s => some s
  | none => do
    let s ← Text.after? "self[".toList s
    let (_, s) ← takeLiteral s
    Text.after? [']'] s

/-- The literal of a call of the loader, and the path after it. -/
def call? (s : List Char) : Option (List Char × List String) := do
  let s ← afterLoader? s
  let s ← Text.after? ['('] s
  let (written, s) ← takeLiteral s
  let s ← Text.after? [')'] s
  return (written, ← path? s.length s)

/-! ### Reading -/

/-- Whatever begins with a word. -/
def ofWord? (s : List Char) : Option Expression :=
  let named (start : String) := Text.after? start.toList s
  if s = "undefined".toList then some undefined
  else if s = "exports".toList then some exports
  else if s = "module.exports".toList then some moduleExports
  else if s = "app".toList then some app
  else if s = "cwd".toList then some cwd
  else if let some name := named "fn " then some (counter (String.ofList (Text.trim name)))
  else if let some name := named "class " then some (blueprint (String.ofList (Text.trim name)))
  else if let some path := named "process." then
    some (process ((Text.pieces (· == '.') path).map String.ofList))
  else none

/-- Reads an expression. -/
def read (text : List Char) : Except String Expression :=
  let s := Text.trim text
  match ofWord? s with
  | some e => .ok e
  | none =>
    match call? s with
    | some (written, path) => (Json.readText written).map (load · path)
    | none =>
      match Json.read? s with
      | some value => .ok (literal value)
      | none => .error ("unexpected expression \x60" ++ String.ofList s ++ "\x60")

end Expression

namespace Statement

/-- The largest number of milliseconds. -/
def millisMax : Nat := Nat.pow 2 64 - 1

/-- A number of milliseconds, from its digits on. -/
def millisFrom (n : Nat) : List Char → Except String Nat
  | [] => .ok n
  | c :: s =>
    if !c.isDigit then .error "invalid digit found in string"
    else
      let n := n * 10 + (c.toNat - 48)
      if n > millisMax then .error "number too large to fit in target type" else millisFrom n s

/-- A number of milliseconds. -/
def millis (text : List Char) : Except String Nat :=
  match text with
  | [] => .error "cannot parse integer from empty string"
  | ['+'] => .error "invalid digit found in string"
  | '+' :: s => millisFrom 0 s
  | s => millisFrom 0 s

/-- Text between backquotes. -/
def quoted (text : List Char) : String := "\x60" ++ String.ofList text ++ "\x60"

/-- The complaint about a line that has no place in a script. -/
def onlyInModule (line : List Char) : String := quoted line ++ " is only valid in a module"

/-- The two sides of an assignment. -/
def assignment (line : List Char) : Except String (List Char × Expression) :=
  match Text.cut? " = ".toList line with
  | none => .error ("unexpected statement " ++ quoted line)
  | some (target, e) => (Expression.read e).map (Text.trim target, ·)

/-- The assignment to a target. -/
def ofAssignment (target : List Char) (e : Expression) : Except String Statement :=
  if target = "module.exports".toList then .ok (replaceExports e)
  else if let some name := Text.after? "module.exports.".toList target then
    .ok (assignModule (String.ofList name) e)
  else if let some name := Text.after? "exports.".toList target then
    .ok (assign (String.ofList name) e)
  else .error ("cannot assign to " ++ quoted target)

/-- Reads a line without blanks around it. -/
def read (line : List Char) : Except String Statement :=
  let after? (start : String) := Text.after? start.toList line
  let name (s : List Char) := String.ofList (Text.trim s)
  if (after? "import ").isSome || (after? "await ").isSome then .error (onlyInModule line)
  else if let some s := after? "tick " then .ok (tick (name s))
  else if let some s := after? "throw " then .ok (fail (name s))
  else if let some s := after? "sleep " then (millis (Text.trim s)).map sleep
  else if let some s := after? "delete exports." then .ok (remove (name s))
  else if let some s := after? "export default " then (Expression.read s).map (declare "default")
  else if let some s := (after? "export const ").orElse fun _ => after? "export let " then
    (assignment s).map fun (target, e) => declare (String.ofList target) e
  else (assignment line).bind fun (target, e) => ofAssignment target e

/-- The line is skipped; `first` tells whether it is the first one. -/
def isSkipped (first : Bool) (line : List Char) : Bool :=
  line.isEmpty || (Text.after? "//".toList line).isSome ||
    (first && (Text.after? "#!".toList line).isSome)

/-- Reads the lines of a module or script. -/
def readLines (id : String) (isModule : Bool) : Bool → List (List Char) → Except Failure (List Statement)
  | _, [] => .ok []
  | first, line :: rest => do
    let line := Text.trim line
    if isSkipped first line then readLines id isModule false rest
    else
      let statement ← (read line).mapError (Failure.badSyntax id)
      if statement.needsModule && !isModule then throw (.badSyntax id (onlyInModule line))
      return statement :: (← readLines id isModule false rest)

/-- Reads a module or script. -/
def readAll (id code : String) (isModule : Bool) : Except Failure (List Statement) :=
  readLines id isModule true (Text.lines code.toList)

end Statement

end ScriptVault
