import ScriptVault.Table
import ScriptVault.Text.Pieces

/-!
# Options — what a command line asks for

A word that begins with a dash is an option, or several letters of options; an option may take a value, which stands in
the same word or is the next one.  After `--` all words are plain.  An option stands only once.  Options for the vault
as a whole come first, then a command with its own options; without a command the shell is asked for.
-/

namespace ScriptVault.Terminal

/-! ### Words -/

/-- An option that may be given. -/
structure Flag where
  /-- The name after two dashes. -/
  name : String
  /-- The letter after one dash. -/
  letter : Option Char := none
  /-- It takes a value. -/
  valued : Bool := false
  deriving DecidableEq, Repr

/-- Why a command line says nothing. -/
inductive Misuse where
  /-- No option is written like this. -/
  | unknownOption (word : String)
  /-- An option lacks its value. -/
  | missingValue (name : String)
  /-- An option without values has one. -/
  | needlessValue (name : String)
  /-- An option is given twice. -/
  | repeated (name : String)
  /-- No command has this name. -/
  | unknownCommand (word : String)
  /-- There is a word too many. -/
  | needlessWord (word : String)
  /-- A command lacks the module it is about. -/
  | missingModule
  deriving DecidableEq, Repr

/-- The text shown for a misuse. -/
def Misuse.message : Misuse → String
  | unknownOption word => "unexpected argument '" ++ word ++ "' found"
  | missingValue name => "a value is required for '--" ++ name ++ "' but none was supplied"
  | needlessValue name => "unexpected value for '--" ++ name ++ "' found"
  | repeated name => "the argument '--" ++ name ++ "' cannot be used multiple times"
  | unknownCommand word => "unrecognized subcommand '" ++ word ++ "'"
  | needlessWord word => "unexpected argument '" ++ word ++ "' found"
  | missingModule => "a module id is required"

/-- What stands on a command line. -/
structure Words where
  /-- The options that are given, with their values; those without have an empty one. -/
  given : Table String String := []
  /-- The other words. -/
  plain : List String := []
  deriving DecidableEq, Repr

namespace Words

/-- The option is given. -/
def has (w : Words) (name : String) : Bool := (w.given.at? name).isSome

/-- The value of an option. -/
def value? (w : Words) (name : String) : Option String := w.given.at? name

/-- Notes an option. -/
def give (w : Words) (name value : String) : Except Misuse Words :=
  if w.has name then .error (.repeated name) else .ok { w with given := w.given.put name value }

/-- A value without the mark that may stand before it. -/
def unmarked (s : List Char) : String := String.ofList ((Text.after? ['='] s).getD s)

/-- A word that begins with a dash, and is more than that. -/
def isOption (word : String) : Bool := word.startsWith "-" && word != "-"

/-- Notes the options of some letters; tells the name of the last one if its value is the next word. -/
def giveLetters (flags : List Flag) (word : String) (w : Words) :
    List Char → Except Misuse (Words × Option String)
  | [] => .ok (w, none)
  | c :: rest =>
    match flags.find? (·.letter = some c) with
    | none => .error (.unknownOption word)
    | some flag =>
      if !flag.valued then do giveLetters flags word (← w.give flag.name "") rest
      else if rest.isEmpty then .ok (w, some flag.name)
      else do return (← w.give flag.name (unmarked rest), none)

/-- Notes the options of a word; tells the name of the last one if its value is the next word. -/
def giveWord (flags : List Flag) (word : String) (w : Words) : Except Misuse (Words × Option String) :=
  match word.toList with
  | '-' :: '-' :: rest =>
    let (name, value) := match Text.cut? ['='] rest with
      | some (name, value) => (String.ofList name, some (String.ofList value))
      | none => (String.ofList rest, none)
    match flags.find? (·.name = name) with
    | none => .error (.unknownOption word)
    | some flag =>
      match value, flag.valued with
      | some value, true => do return (← w.give name value, none)
      | none, true => .ok (w, some name)
      | none, false => do return (← w.give name "", none)
      | some _, false => .error (.needlessValue name)
  | letters => giveLetters flags word w letters.tail

/-- Reads words; `whole` tells whether options may still stand behind plain words, else the rest from the
first plain word on is left over. -/
def read (flags : List Flag) (whole : Bool) (w : Words) :
    List String → Except Misuse (Words × List String)
  | [] => .ok (w, [])
  | word :: rest =>
    if word = "--" then
      if whole then .ok ({ w with plain := w.plain ++ rest }, []) else .ok (w, rest)
    else if isOption word then
      match giveWord flags word w, rest with
      | .error e, _ => .error e
      | .ok (w, none), rest => read flags whole w rest
      | .ok (_, some name), [] => .error (.missingValue name)
      | .ok (w, some name), value :: rest =>
        if isOption value then .error (.missingValue name)
        else
          match w.give name value with
          | .error e => .error e
          | .ok w => read flags whole w rest
    else if whole then read flags whole { w with plain := w.plain ++ [word] } rest
    else .ok (w, word :: rest)

end Words

/-! ### Commands -/

/-- What the program is to do. -/
inductive Task where
  /-- Load a module as a script, and show its exports. -/
  | require (id : String) (cwd : Option String)
  /-- Import a module, and show its namespace. -/
  | importAs (id : String) (cwd : Option String) (interop : Bool)
  /-- Show the code of a module. -/
  | code (id : String) (cwd : Option String)
  /-- Load a module, and show what it required. -/
  | deps (id : String)
  /-- List the files. -/
  | files
  /-- Do what the lines of the input say. -/
  | shell
  deriving DecidableEq, Repr

/-- What a command line asks for. -/
structure Options where
  /-- The directory of the vault. -/
  vault : String := "."
  /-- The file with the settings. -/
  config : Option String := none
  /-- What to do. -/
  task : Task := .shell
  deriving DecidableEq, Repr

namespace Options

/-- The options for the vault as a whole. -/
def flags : List Flag :=
  [⟨"vault", some 'C', true⟩, ⟨"config", some 'c', true⟩, ⟨"verbose", some 'v', false⟩]

/-- The option for the directory that relative specifiers are seen from. -/
def cwdFlag : Flag := ⟨"cwd", none, true⟩

/-- The option against the bindings of a script. -/
def noInteropFlag : Flag := ⟨"no-interop", none, false⟩

/-- The words of a command that is about one module. -/
def readModule (flags : List Flag) (args : List String) : Except Misuse (String × Words) := do
  let (words, _) ← Words.read flags true {} args
  match words.plain with
  | [] => throw .missingModule
  | [id] => return (id, words)
  | _ :: word :: _ => throw (.needlessWord word)

/-- The words of a command that is about no module. -/
def readAlone (args : List String) : Except Misuse Unit := do
  let (words, _) ← Words.read [] true {} args
  match words.plain with
  | [] => return ()
  | word :: _ => throw (.needlessWord word)

/-- What a command with its words asks for. -/
def readTask : List String → Except Misuse Task
  | [] => .ok .shell
  | command :: args =>
    match command with
    | "require" => do
      let (id, words) ← readModule [cwdFlag] args
      return .require id (words.value? "cwd")
    | "import" => do
      let (id, words) ← readModule [cwdFlag, noInteropFlag] args
      return .importAs id (words.value? "cwd") (!words.has "no-interop")
    | "code" => do
      let (id, words) ← readModule [cwdFlag] args
      return .code id (words.value? "cwd")
    | "deps" => do return .deps (← readModule [] args).1
    | "files" => do
      readAlone args
      return .files
    | "shell" => do
      readAlone args
      return .shell
    | word => .error (.unknownCommand word)

/-- A value that is not empty. -/
def filled (words : Words) (name : String) : Except Misuse (Option String) :=
  match words.value? name with
  | some "" => .error (.missingValue name)
  | value => .ok value

/-- What a command line asks for. -/
def read (args : List String) : Except Misuse Options := do
  let (words, rest) ← Words.read flags false {} args
  let vault ← filled words "vault"
  let config ← filled words "config"
  return { vault := vault.getD ".", config := config, task := ← readTask rest }

end Options

end ScriptVault.Terminal
