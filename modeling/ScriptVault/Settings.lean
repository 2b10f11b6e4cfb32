import ScriptVault.Rules

/-!
# Settings — what the loader is told

Every setting has a default.  `Settings.check` refuses the settings that the loader cannot work with.
-/

namespace ScriptVault

/-- The settings of a loader. -/
structure Settings where
  /-- The name under which scripts find the loader. -/
  requireName : String := "require"
  /-- Scripts may require the modules of the host. -/
  exposeInternalModules : Bool := true
  /-- Scripts may require modules from the network. -/
  enableExternalLinks : Bool := false
  /-- The rules for the files that are read ahead of time. -/
  preloadingRules : List String := ["+/\\.m?[jt]s(?:\\.md)?$/iu"]
  /-- The remote modules that are fetched at the start. -/
  preloadedExternalLinks : List String := []
  /-- The languages of the code blocks that count as code in a note. -/
  codeBlockLanguages : List String := ["JS", "TS", "JavaScript", "TypeScript"]
  /-- The seconds that an import may take; none are no limit. -/
  importTimeout : Float := 10.0
  /-- The modules that are imported and run at the start. -/
  startupModules : List String := []
  /-- Startup modules run again when they are invalidated. -/
  autoReloadStartupModules : Bool := true
  /-- How many compilations run side by side. -/
  workerThreads : Nat := 4
  /-- How many requests run side by side. -/
  fetchConcurrency : Nat := 4
  /-- The command that compiles TypeScript. -/
  typescriptCommand : List String := []
  /-- What stands before a module's id in the name of its source. -/
  sourceRoot : String := "vault://"

namespace Settings

/-- A number of seconds that some time can last. -/
def isDuration (seconds : Float) : Bool := seconds.isFinite && !(seconds < 0.0)

/-- The compiled preloading rules. -/
def rules (settings : Settings) : Except Failure Rules := Rules.read settings.preloadingRules

/-- Refuses settings that the loader cannot work with. -/
def check (settings : Settings) : Except Failure Unit := do
  if settings.requireName.isEmpty then
    throw (.config "require_name must not be empty")
  if !isDuration settings.importTimeout then
    throw (.config ("import_timeout must be a non-negative number of seconds, got " ++
      Decimal.plain settings.importTimeout))
  discard settings.rules

/-- The nanoseconds of a second. -/
def nanosPerSecond : Nat := 1000000000

/-- The nanoseconds that an import may take, if there is a limit. -/
def importNanos? (settings : Settings) : Option Nat :=
  if 0.0 < settings.importTimeout then
    some (Decimal.unitsOf settings.importTimeout nanosPerSecond)
  else none

/-- The first number of seconds that no time lasts: `2 ^ 64`. -/
def secondsEnd : Nat := 0x10000000000000000

/-- The nanoseconds of a time that lasts some seconds. -/
def time? (seconds : Float) : Option Nat :=
  let nanos := Decimal.unitsOf seconds nanosPerSecond
  if nanos < secondsEnd * nanosPerSecond then some nanos else none

/-- The limit of an import, or nothing at all where the settings ask for a time that there is not: then the loader
breaks off. -/
def importLimit? (settings : Settings) : Option (Option Nat) :=
  if 0.0 < settings.importTimeout then (time? settings.importTimeout).map some else some none

/-- Two texts are equal but for the case of ASCII letters. -/
def sameLetters (a b : String) : Bool :=
  a.toList.map Char.toLower == b.toList.map Char.toLower

/-- Code blocks of the language count as code. -/
def loadsLanguage (settings : Settings) (language : String) : Bool :=
  settings.codeBlockLanguages.any (sameLetters · language)

end Settings

end ScriptVault
