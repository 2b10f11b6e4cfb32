import ScriptVault.Decimal.Text

/-!
# Failure — why a module could not be loaded

A failed evaluation is kept and given again to later callers, so failures are plain values.
`Failure.message` is the wording that users see.
-/

namespace ScriptVault

/-- The ways in which loading a module fails. -/
inductive Failure where
  /-- No resolver knows the specifier. -/
  | moduleNotFound (specifier : String)
  /-- The module's code cannot be parsed. -/
  | badSyntax (id message : String)
  /-- The module's code threw while it ran. -/
  | evaluation (id message : String)
  /-- Compiling the module failed. -/
  | transpile (diagnostics : String)
  /-- A remote module could not be fetched. -/
  | network (url reason : String)
  /-- The module did not finish within the import timeout. -/
  | timeout (id : String) (seconds : Float)
  /-- The file system refused. -/
  | fileSystem (reason : String)
  /-- A text is not JSON. -/
  | json (reason : String)
  /-- A text is not a URL. -/
  | invalidUrl (reason : String)
  /-- The settings or the path rules are unusable. -/
  | config (reason : String)
  /-- The text of the settings is not in their format. -/
  | unreadableSettings
  /-- A value is of the wrong type. -/
  | wrongType (reason : String)

namespace Failure

/-- The text shown for a failure. -/
def message : Failure → String
  | moduleNotFound specifier => "Cannot find module '" ++ specifier ++ "'"
  | badSyntax id text => "SyntaxError in '" ++ id ++ "': " ++ text
  | evaluation id text => "Error evaluating '" ++ id ++ "': " ++ text
  | transpile diagnostics => "Transpilation failed:\n" ++ diagnostics
  | network url reason => "Network error fetching '" ++ url ++ "': " ++ reason
  | timeout id seconds =>
    "Timed out importing '" ++ id ++ "' after " ++ Decimal.plain seconds ++ "s"
  | fileSystem reason => "File system error: " ++ reason
  | json reason => "JSON parse error: " ++ reason
  | invalidUrl reason => "Invalid URL: " ++ reason
  | config reason => "Configuration error: " ++ reason
  | unreadableSettings => "Configuration error: the settings cannot be read"
  | wrongType reason => "TypeError: " ++ reason

/-- The module took too long. -/
def isTimeout : Failure → Bool
  | timeout .. => true
  | _ => false

end Failure

end ScriptVault
