import ScriptVault.Compile.Request
import ScriptVault.Compile.Shell

/-!
# Command — compiling by a command

The command gets the source as its input and the options as a JSON text in a variable; `{format}` in
an argument stands for the form that is asked for.  What it writes is the code, and if it fails what it
complains of are the diagnostics.
-/

namespace ScriptVault.Compile.Command

/-- The variable that holds the options. -/
def optionsVariable : List Char := "SPACEY_COMPILER_OPTIONS".toList

/-- An argument with the form put in. -/
def argument (form : Form) (arg : String) : List Char :=
  Text.replace "\x7bformat\x7d".toList form.name.toList arg.toList

/-- Runs a program; none is an unknown program. -/
def run? (program : String) (args : List (List Char)) (options input : List Char) : Option Finished :=
  if program == "sh" || program == "/bin/sh" || program == "bash" then
    match args with
    | ['-', 'c'] :: line :: _ =>
      let value (name : List Char) := if name = optionsVariable then options else []
      some (Shell.runLine value line input)
    | _ => some {}
  else Tool.run? program args input

/-- What a command answers to a request. -/
def compile (program : String) (args : List String) (request : Request) : Outcome :=
  let options := (Json.object request.options).compact.toList
  match run? program (args.map (argument request.form)) options request.source.toList with
  | none =>
    .error ["failed to run " ++ program ++ ": No such file or directory (os error 2)"]
  | some finished =>
    if finished.status = 0 then .ok (String.ofList finished.out)
    else
      let diagnostics := (Text.lines finished.err).map String.ofList
      if diagnostics.isEmpty then
        .error [program ++ " exited with exit status: " ++ toString finished.status]
      else .error diagnostics

end ScriptVault.Compile.Command
