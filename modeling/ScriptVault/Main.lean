import ScriptVault.Terminal.Program

/-!
# Main — the command line

Reads the vault, the settings that an option names, and the input; the program itself decides nothing here.
-/

namespace ScriptVault.Main

/-- How many directories below each other are followed. -/
def depthLimit : Nat := 256

/-- The text of a file, if it can be read as one. -/
def readText? (path : String) : IO (Option String) := do
  try
    return String.fromUTF8? (← IO.FS.readBinFile path)
  catch _ => return none

/-- The files below a directory, each under its path behind `way`; a directory has a slash at its end. -/
def readBelow (directory : String) : (way : String) → Nat → IO (List (String × String))
  | _, 0 => return []
  | way, depth + 1 => do
    let mut all : List (String × String) := []
    for entry in ← (← IO.FS.realPath directory).readDir do
      let path := way ++ entry.fileName
      let place := directory ++ "/" ++ entry.fileName
      if (← entry.path.metadata).type == IO.FS.FileType.dir then
        all := all ++ (path ++ "/", "") :: (← readBelow place (path ++ "/") depth)
      else
        match ← readText? place with
        | some text => all := all ++ [(path, text)]
        | none => pure ()
    return all

/-- The text of a file, or why it cannot be read. -/
def readSettings (path : String) : IO (Except Failure String) := do
  match ← (IO.FS.readFile path).toBaseIO with
  | .ok text => return .ok text
  | .error _ => return .error (.fileSystem Directory.Refusal.missing.message)

/-- All that stands in the input. -/
partial def readInput (input : IO.FS.Stream) (done : String) : IO String := do
  let line ← input.getLine
  if line.isEmpty then return done else readInput input (done ++ line)

/-- Writes what a program has written, and ends as it ended. -/
def finish (ended : Terminal.Ended) : IO UInt32 := do
  IO.print ended.screen.out
  IO.eprint ended.screen.err
  return ended.status.toUInt32

end ScriptVault.Main

open ScriptVault Terminal

/-- Does what the command line asks for. -/
def main (args : List String) : IO UInt32 := do
  match Options.read args with
  | .error misuse => Main.finish (.misused misuse)
  | .ok options =>
    let vault ← Main.readBelow options.vault "" Main.depthLimit
    let settings ← match options.config with
      | some path => Main.readSettings path
      | none => pure (.ok "")
    let input ← match options.task with
      | .shell => Main.readInput (← IO.getStdin) ""
      | _ => pure ""
    Main.finish (Program.run options (.ofFiles vault) (fun _ => settings) input)
