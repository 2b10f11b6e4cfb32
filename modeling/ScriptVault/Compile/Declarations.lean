import ScriptVault.Compile.Request
import ScriptVault.Text.Blank
import ScriptVault.Text.Lines
import ScriptVault.Text.Pieces

/-!
# Declarations — compiling scripts of one statement a line

The compiler for modules that are written one statement a line: it drops the types of declared constants,
and for a script turns declarations into assignments to the exports.  A line with a type error is the one
diagnostic of its module.
-/

namespace ScriptVault.Compile.Declarations

/-- The name of a constant without its type. -/
def untyped (name : List Char) : List Char :=
  Text.trim (name.takeWhile (· != ':'))

/-- A line as it is in the given form. -/
def line (form : Form) (written : List Char) : Except String (List Char) :=
  let trimmed := Text.trim written
  let isScript := form == .script
  if Text.has "TYPE ERROR".toList trimmed then .error ("error TS2322: " ++ String.ofList trimmed)
  else
    match if isScript then Text.after? "export default ".toList trimmed else none with
    | some e => .ok ("exports.default = ".toList ++ e)
    | none =>
      match (Text.after? "export const ".toList trimmed).bind (Text.cut? " = ".toList) with
      | some (name, e) =>
        let start := if isScript then "exports." else "export const "
        .ok (start.toList ++ untyped name ++ " = ".toList ++ e)
      | none => .ok written

/-- Compiles a module. -/
def compile (request : Request) : Outcome :=
  match (Text.lines request.source.toList).mapM (line request.form) with
  | .ok lines => .ok (String.ofList (Text.join ['\n'] lines))
  | .error diagnostic => .error [diagnostic]

end ScriptVault.Compile.Declarations
