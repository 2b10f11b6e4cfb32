import ScriptVault.Compile.Request
import ScriptVault.Text.Blank
import ScriptVault.Text.Lines

/-!
# Echo — a compiler that tells what it was asked for

The code is the source behind a comment with the form and the options.  Lines with a mark are its
diagnostics.
-/

namespace ScriptVault.Compile.Echo

/-- The mark of a line that cannot be compiled. -/
def mark : List Char := "@@error".toList

/-- Compiles a source. -/
def compile (request : Request) : Outcome :=
  let faults := (Text.lines request.source.toList).filter (Text.has mark)
  if faults.isEmpty then
    .ok ("/* " ++ request.form.name ++ " " ++ (Json.object request.options).compact ++ " */\n" ++
      request.source)
  else .error (faults.map fun line => "E: " ++ String.ofList (Text.trim line))

end ScriptVault.Compile.Echo
