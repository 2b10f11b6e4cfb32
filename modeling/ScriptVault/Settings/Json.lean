import ScriptVault.Decimal.Read
import ScriptVault.Json.Basic
import ScriptVault.Settings

/-!
# Json — settings as the members of an object

The names are those of the settings' file.  A member that is missing or of another type leaves the setting
as it is.
-/

namespace ScriptVault.Settings

/-- A list of texts as JSON. -/
def ofTexts (texts : List String) : Json := .array (texts.map .text)

/-- The settings by their names; the time limit is written as a decimal. -/
def members (s : Settings) : List (String × Json) :=
  [("require_name", .text s.requireName),
    ("expose_internal_modules", .bool s.exposeInternalModules),
    ("enable_external_links", .bool s.enableExternalLinks),
    ("preloading_rules", ofTexts s.preloadingRules),
    ("preloaded_external_links", ofTexts s.preloadedExternalLinks),
    ("markdown_code_block_languages_to_load", ofTexts s.codeBlockLanguages),
    ("import_timeout", .text (Decimal.plain s.importTimeout)),
    ("startup_modules", ofTexts s.startupModules),
    ("auto_reload_startup_modules", .bool s.autoReloadStartupModules),
    ("fetch_concurrency", .number (.whole s.fetchConcurrency)),
    ("typescript_command", ofTexts s.typescriptCommand),
    ("source_root", .text s.sourceRoot)]

/-- A text, or what stands there. -/
def asText (old : String) : Option Json → String
  | some (.text s) => s
  | _ => old

/-- A truth value, or what stands there. -/
def asBool (old : Bool) : Option Json → Bool
  | some (.bool b) => b
  | _ => old

/-- A list of texts, or what stands there. -/
def asTexts (old : List String) : Option Json → List String
  | some (.array items) => items.map fun item => (Json.asText? item).getD ""
  | _ => old

/-- A count, or what stands there. -/
def asCount (old : Nat) : Option Json → Nat
  | some (.number (.whole n)) => n.toNat
  | _ => old

/-- A number of seconds, or what stands there. -/
def asSeconds (old : Float) : Option Json → Float
  | some (.number n) => n.toFloat
  | some (.text s) => (Decimal.ofText? s).getD old
  | _ => old

/-- The settings with the members of an object laid over them. -/
def lay (s : Settings) (v : Json) : Settings where
  requireName := asText s.requireName (v.member? "require_name")
  exposeInternalModules := asBool s.exposeInternalModules (v.member? "expose_internal_modules")
  enableExternalLinks := asBool s.enableExternalLinks (v.member? "enable_external_links")
  preloadingRules := asTexts s.preloadingRules (v.member? "preloading_rules")
  preloadedExternalLinks := asTexts s.preloadedExternalLinks (v.member? "preloaded_external_links")
  codeBlockLanguages := asTexts s.codeBlockLanguages (v.member? "markdown_code_block_languages_to_load")
  importTimeout := asSeconds s.importTimeout (v.member? "import_timeout")
  startupModules := asTexts s.startupModules (v.member? "startup_modules")
  autoReloadStartupModules :=
    asBool s.autoReloadStartupModules (v.member? "auto_reload_startup_modules")
  workerThreads := asCount s.workerThreads (v.member? "worker_threads")
  fetchConcurrency := asCount s.fetchConcurrency (v.member? "fetch_concurrency")
  typescriptCommand := asTexts s.typescriptCommand (v.member? "typescript_command")
  sourceRoot := asText s.sourceRoot (v.member? "source_root")

end ScriptVault.Settings
