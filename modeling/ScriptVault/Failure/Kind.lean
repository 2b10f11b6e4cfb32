import ScriptVault.Decimal.Read
import ScriptVault.Failure
import ScriptVault.Json.Basic

/-!
# Kind — failures by the names of their kinds

Every failure has a kind, which programs look at, beside the text that users see.
-/

namespace ScriptVault.Failure

/-- The name of the kind. -/
def kind : Failure → String
  | moduleNotFound _ => "ModuleNotFound"
  | badSyntax .. => "Syntax"
  | evaluation .. => "Evaluation"
  | transpile _ => "Transpile"
  | network .. => "Network"
  | timeout .. => "Timeout"
  | fileSystem _ => "Io"
  | json _ => "Json"
  | invalidUrl _ => "InvalidUrl"
  | config _ => "Config"
  | unreadableSettings => "Config"
  | wrongType _ => "TypeError"

/-- The failure of a kind with its subject and its reason. -/
def ofKind? (kind subject reason : String) : Option Failure :=
  match kind with
  | "ModuleNotFound" => some (.moduleNotFound subject)
  | "Syntax" => some (.badSyntax subject reason)
  | "Evaluation" => some (.evaluation subject reason)
  | "Transpile" => some (.transpile subject)
  | "Network" => some (.network subject reason)
  | "Timeout" => some (.timeout subject ((Decimal.ofText? reason).getD 0.0))
  | "Io" => some (.fileSystem subject)
  | "InvalidUrl" => some (.invalidUrl subject)
  | "Config" => some (.config subject)
  | "TypeError" => some (.wrongType subject)
  | _ => none

/-- A failure as JSON; what is wrong with a settings' text is not told. -/
def toJson (f : Failure) : Json :=
  match f with
  | .unreadableSettings => Json.ofMembers [("error", .text f.kind)]
  | _ => Json.ofMembers [("error", .text f.kind), ("message", .text f.message)]

end ScriptVault.Failure
