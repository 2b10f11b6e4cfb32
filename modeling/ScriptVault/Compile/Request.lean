import ScriptVault.Header
import ScriptVault.Path
import ScriptVault.Settings

/-!
# Request — what the compiler is asked for

A script that is required becomes a function body, and one that is imported a module of its own; a
declared option may override the form.  The compiler answers with code or with diagnostics.
-/

namespace ScriptVault.Compile

/-- The form of compiled code. -/
inductive Form where
  /-- The body of a function that fills an exports object. -/
  | script
  /-- A module with import and export declarations. -/
  | module
  deriving DecidableEq, Repr

namespace Form

/-- The short name of the form. -/
def name : Form → String
  | script => "cjs"
  | module => "esm"

/-- The option that asks for the form. -/
def optionName : Form → String
  | script => "CommonJS"
  | module => "NodeNext"

/-- The form that an option asks for. -/
def ofOption? : Json → Option Form
  | .text s => some (if Settings.sameLetters s "commonjs" then script else module)
  | .number (.whole n) => some (if n = 1 then script else module)
  | .number _ => some module
  | _ => none

end Form

/-- What is compiled, and how. -/
structure Request where
  /-- The code to compile. -/
  source : String
  /-- The form of the result. -/
  form : Form
  /-- All options, in the order of their names. -/
  options : List (String × Json)

/-- The options that hold unless they are declared otherwise. -/
def defaultOptions (form : Form) : List (String × Json) :=
  [("inlineSourceMap", .bool true), ("inlineSources", .bool true),
    ("module", .text form.optionName), ("target", .text "ESNext")]

/-- The request for a source with its declaration. -/
def Request.of (source : String) (form : Form) (header : Header) : Request :=
  let options := (header.options.getD []).foldl (fun all (k, v) => Json.insertMember k v all)
    (defaultOptions form)
  { source := source
    form := ((options.lookup "module").bind Form.ofOption?).getD form
    options := options }

/-- The extensions of TypeScript files. -/
def isTypeScriptExtension (extension : String) : Bool := extension == "ts" || extension == "mts"

/-- The declaration of a source, where `given` replaces what stands in its comment; a source that declares
no language has the one of its extension. -/
def headerOf (given : Option Header) (path : Option String) (content : String) : Header :=
  let declared := given.getD (Header.ofComment content.toList)
  if declared.language.isNone && path.any (isTypeScriptExtension ∘ Path.extension) then
    { declared with language := some "TypeScript" }
  else declared

/-- Code, or diagnostics. -/
abbrev Outcome := Except (List String) String

end ScriptVault.Compile
