import ScriptVault.Settings
import ScriptVault.Toml.Read

/-!
# Read — settings from a document

Each key that the document binds replaces the default; keys that are no settings are ignored, and a
value of the wrong type makes the document unreadable.
-/

namespace ScriptVault.Settings

/-- A text value. -/
def text? : Toml → Option String
  | .text s => some s
  | _ => none

/-- A list of texts. -/
def texts? : Toml → Option (List String)
  | .array items => items.mapM text?
  | _ => none

/-- A truth value. -/
def bool? : Toml → Option Bool
  | .bool b => some b
  | _ => none

/-- A count. -/
def count? : Toml → Option Nat
  | .whole n => if n < 0 then none else some n.toNat
  | _ => none

/-- A number of seconds; whole numbers count too. -/
def seconds? : Toml → Option Float
  | .real x => some x
  | .whole n => some (Json.Number.whole n).toFloat
  | _ => none

/-- The value of a key, or its default. -/
def field {α : Type} (entries : Toml.Entries) (key : String) (read : Toml → Option α)
    (default : α) : Option α :=
  match entries.lookup key with
  | some v => read v
  | none => some default

/-- The settings that a document binds. -/
def ofEntries? (entries : Toml.Entries) : Option Settings := do
  let d : Settings := {}
  return {
    requireName := ← field entries "require_name" text? d.requireName
    exposeInternalModules := ← field entries "expose_internal_modules" bool? d.exposeInternalModules
    enableExternalLinks := ← field entries "enable_external_links" bool? d.enableExternalLinks
    preloadingRules := ← field entries "preloading_rules" texts? d.preloadingRules
    preloadedExternalLinks :=
      ← field entries "preloaded_external_links" texts? d.preloadedExternalLinks
    codeBlockLanguages :=
      ← field entries "markdown_code_block_languages_to_load" texts? d.codeBlockLanguages
    importTimeout := ← field entries "import_timeout" seconds? d.importTimeout
    startupModules := ← field entries "startup_modules" texts? d.startupModules
    autoReloadStartupModules :=
      ← field entries "auto_reload_startup_modules" bool? d.autoReloadStartupModules
    workerThreads := ← field entries "worker_threads" count? d.workerThreads
    fetchConcurrency := ← field entries "fetch_concurrency" count? d.fetchConcurrency
    typescriptCommand := ← field entries "typescript_command" texts? d.typescriptCommand
    sourceRoot := ← field entries "source_root" text? d.sourceRoot }

/-- The settings that a text spells, if the loader can work with them. -/
def read (text : String) : Except Failure Settings :=
  match (Toml.read? text.toList).bind ofEntries? with
  | none => .error .unreadableSettings
  | some settings => do
    settings.check
    return settings

end ScriptVault.Settings
