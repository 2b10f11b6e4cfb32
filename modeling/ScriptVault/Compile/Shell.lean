import ScriptVault.Compile.Tool

/-!
# Shell — command lines of several programs

A command line is a list of programs with `;`, `&&`, `||` and `|` between them.  Quotes keep words
together, names after a dollar sign stand for values, and output may be sent elsewhere.
-/

namespace ScriptVault.Compile.Shell

/-- A part of a command line. -/
inductive Part where
  /-- A word, quotes removed. -/
  | word (text : List Char)
  /-- A mark between words. -/
  | mark (text : String)
  deriving DecidableEq, Repr

/-- The name after a dollar sign, and what follows it. -/
def takeName (s : List Char) : List Char × List Char :=
  match s with
  | '\x7b' :: rest => (rest.takeWhile (· != '\x7d'), (rest.dropWhile (· != '\x7d')).drop 1)
  | '?' :: rest => (['?'], rest)
  | _ => (s.takeWhile fun c => c.isAlphanum || c == '_', s.dropWhile fun c => c.isAlphanum || c == '_')

/-- The inside of double quotes, and what follows them. -/
def takeQuoted (value : List Char → List Char) : Nat → List Char → List Char × List Char
  | 0, s => ([], s)
  | fuel + 1, s =>
    match s with
    | [] => ([], [])
    | '\x22' :: rest => ([], rest)
    | '\\' :: c :: rest =>
      let kept := if ['\x22', '\\', '$', '\x60'].contains c then [c] else ['\\', c]
      let (text, rest) := takeQuoted value fuel rest
      (kept ++ text, rest)
    | '$' :: rest =>
      let (name, rest) := takeName rest
      let (text, rest) := takeQuoted value fuel rest
      ((if name.isEmpty then ['$'] else value name) ++ text, rest)
    | c :: rest =>
      let (text, rest) := takeQuoted value fuel rest
      (c :: text, rest)

/-- A character that ends a word. -/
def endsWord (c : Char) : Bool := [' ', '\t', '\n', ';', '&', '|', '>', '<'].contains c

/-- A word, and what follows it. -/
def takeWord (value : List Char → List Char) : Nat → List Char → List Char × List Char
  | 0, s => ([], s)
  | fuel + 1, s =>
    match s with
    | [] => ([], [])
    | '\x27' :: rest =>
      let (text, after) := takeWord value fuel ((rest.dropWhile (· != '\x27')).drop 1)
      (rest.takeWhile (· != '\x27') ++ text, after)
    | '\x22' :: rest =>
      let (inside, rest) := takeQuoted value (rest.length + 1) rest
      let (text, after) := takeWord value fuel rest
      (inside ++ text, after)
    | '\\' :: c :: rest =>
      let (text, after) := takeWord value fuel rest
      (c :: text, after)
    | '$' :: rest =>
      let (name, rest) := takeName rest
      let (text, after) := takeWord value fuel rest
      ((if name.isEmpty then ['$'] else value name) ++ text, after)
    | c :: rest =>
      if endsWord c then ([], c :: rest)
      else
        let (text, after) := takeWord value fuel rest
        (c :: text, after)

/-- The marks of a command line, the longer ones first. -/
def marks : List String := ["2>&1", "1>&2", ">&2", "2>", "1>", "&&", "||", ";", "|", ">", "\n"]

/-- The parts of a command line. -/
def parts (value : List Char → List Char) : Nat → List Char → List Part
  | 0, _ => []
  | fuel + 1, s =>
    match s with
    | [] => []
    | c :: rest =>
      if c == ' ' || c == '\t' then parts value fuel rest
      else
        match marks.find? fun m => (Text.after? m.toList s).isSome with
        | some m => .mark (if m == "\n" then ";" else m) :: parts value fuel (s.drop m.length)
        | none =>
          if endsWord c then parts value fuel rest
          else
            let (word, rest) := takeWord value (s.length + 1) s
            .word word :: parts value fuel rest

/-- Where an output goes. -/
inductive Sink where
  | out
  | err
  | nowhere
  deriving DecidableEq, Repr

/-- One program with its redirections. -/
structure Command where
  /-- The program and its arguments. -/
  words : List (List Char) := []
  /-- Where its output goes. -/
  out : Sink := .out
  /-- Where its complaints go. -/
  err : Sink := .err

/-- A program at the start of some parts, and what follows it. -/
def takeCommand (command : Command) : List Part → Command × List Part
  | .word w :: rest => takeCommand { command with words := command.words ++ [w] } rest
  | .mark ">" :: .word _ :: rest => takeCommand { command with out := .nowhere } rest
  | .mark "1>" :: .word _ :: rest => takeCommand { command with out := .nowhere } rest
  | .mark "2>" :: .word _ :: rest => takeCommand { command with err := .nowhere } rest
  | .mark ">&2" :: rest => takeCommand { command with out := command.err } rest
  | .mark "1>&2" :: rest => takeCommand { command with out := command.err } rest
  | .mark "2>&1" :: rest => takeCommand { command with err := command.out } rest
  | rest => (command, rest)

/-- A run of a command line. -/
structure Run where
  /-- The input that is left. -/
  input : List Char
  /-- What was written so far. -/
  done : Finished := {}
  /-- The line was left early. -/
  left : Bool := false

/-- Sends a text where it is to go. -/
def send (sink : Sink) (text : List Char) (done : Finished) : Finished :=
  match sink with
  | .out => { done with out := done.out ++ text }
  | .err => { done with err := done.err ++ text }
  | .nowhere => done

/-- The number that a word spells. -/
def number (word : List Char) : Nat := word.foldl (fun n c => n * 10 + (c.toNat - 48)) 0

/-- Runs one program. -/
def runCommand (command : Command) (run : Run) : Run :=
  match command.words with
  | [] => run
  | name :: args =>
    match String.ofList name with
    | "exit" =>
      let status := match args with
        | [] => run.done.status
        | word :: _ => number word % 256
      { run with left := true, done := { run.done with status := status } }
    | ":" => { run with done := { run.done with status := 0 } }
    | program =>
      let finished := (Tool.run? program args run.input).getD
        { err := "sh: 1: ".toList ++ name ++ ": not found\n".toList, status := 127 }
      let done := send command.err finished.err (send command.out finished.out run.done)
      let reads := ["cat", "sed", "tr"].contains program
      { run with input := if reads then [] else run.input, done := { done with status := finished.status } }

/-- Runs the programs of a pipe, each on the output of the one before. -/
def runPipe : Nat → Command → List Part → Run → Run × List Part
  | 0, command, parts, run => (runCommand command run, parts)
  | fuel + 1, command, parts, run =>
    match parts with
    | .mark "|" :: rest =>
      let first := runCommand command { input := run.input }
      let (next, rest) := takeCommand {} rest
      let (second, rest) :=
        runPipe fuel next rest
          { input := first.done.out, done := { run.done with err := run.done.err ++ first.done.err } }
      ({ second with input := first.input, left := false }, rest)
    | _ => (runCommand command run, parts)

/-- Runs a command line from some part on; `skips` leaves out the next program. -/
def runParts : Nat → Bool → List Part → Run → Run
  | 0, _, _, run => run
  | fuel + 1, skips, parts, run =>
    if run.left || parts.isEmpty then run
    else
      let (command, rest) := takeCommand {} parts
      let (run, rest) := if skips then (run, rest) else runPipe parts.length command rest run
      match rest with
      | .mark "&&" :: rest => runParts fuel (run.done.status != 0) rest run
      | .mark "||" :: rest => runParts fuel (run.done.status == 0) rest run
      | _ :: rest => runParts fuel false rest run
      | [] => run

/-- Runs a command line; `value` gives the values of names. -/
def runLine (value : List Char → List Char) (line input : List Char) : Finished :=
  let all := parts value (line.length + 1) line
  (runParts (all.length + 1) false all { input := input }).done

end ScriptVault.Compile.Shell
