import ScriptVault.Pattern.RegexRead
import ScriptVault.Text.Pieces

/-!
# Tool — text programs that a compile command may name

A command runs without the rest of a system around it, so what it may name are the usual programs that
turn text into text.  A program takes arguments and input, and leaves output, complaints and a status.
-/

namespace ScriptVault.Compile

/-- What a program leaves when it ends. -/
structure Finished where
  /-- What it wrote. -/
  out : List Char := []
  /-- What it complained of. -/
  err : List Char := []
  /-- Its exit status; zero is success. -/
  status : Nat := 0
  deriving DecidableEq, Repr

namespace Tool

/-! ### Formats and echoes -/

/-- The character of an escape after its backslash, and what follows it. -/
def escape : List Char → Option (Char × List Char)
  | 'n' :: s => some ('\n', s)
  | 't' :: s => some ('\t', s)
  | 'r' :: s => some ('\r', s)
  | '\\' :: s => some ('\\', s)
  | 'a' :: s => some (Char.ofNat 7, s)
  | 'b' :: s => some (Char.ofNat 8, s)
  | 'f' :: s => some (Char.ofNat 12, s)
  | 'v' :: s => some (Char.ofNat 11, s)
  | s =>
    let digits := (s.take 3).takeWhile fun c => '0' ≤ c && c ≤ '7'
    if digits.isEmpty then none
    else some (Char.ofNat (digits.foldl (fun n c => n * 8 + (c.toNat - 48)) 0), s.drop digits.length)

/-- A format with its escapes resolved and its arguments in their places, and the arguments left over. -/
def format : Nat → List Char → List (List Char) → List Char × List (List Char)
  | 0, _, args => ([], args)
  | _ + 1, [], args => ([], args)
  | fuel + 1, '\\' :: rest, args =>
    match escape rest with
    | some (c, rest) =>
      let (out, args) := format fuel rest args
      (c :: out, args)
    | none =>
      let (out, args) := format fuel rest args
      ('\\' :: out, args)
  | fuel + 1, '%' :: '%' :: rest, args =>
    let (out, args) := format fuel rest args
    ('%' :: out, args)
  | fuel + 1, '%' :: c :: rest, args =>
    let value := args.headD (if c == 'd' then ['0'] else [])
    let (out, args) := format fuel rest (args.drop 1)
    (value ++ out, args)
  | fuel + 1, c :: rest, args =>
    let (out, args) := format fuel rest args
    (c :: out, args)

/-- A format used again until no argument is left. -/
def formatAll (text : List Char) : Nat → List (List Char) → List Char
  | 0, _ => []
  | fuel + 1, args =>
    let (out, left) := format (text.length + 1) text args
    if left.isEmpty || left.length = args.length then out else out ++ formatAll text fuel left

/-- The arguments with blanks between them, on a line of their own. -/
def echo (args : List (List Char)) : List Char :=
  match args with
  | ['-', 'n'] :: rest => Text.join [' '] rest
  | _ => Text.join [' '] args ++ ['\n']

/-! ### Substitution -/

/-- A basic regular expression in the notation of the pattern reader. -/
def ofBasic : List Char → List Char
  | '\\' :: c :: rest =>
    if ['(', ')', '\x7b', '\x7d', '|', '+', '?'].contains c then c :: ofBasic rest
    else '\\' :: c :: ofBasic rest
  | c :: rest =>
    if ['(', ')', '\x7b', '\x7d', '|', '+', '?'].contains c then '\\' :: c :: ofBasic rest
    else c :: ofBasic rest
  | [] => []

/-- The replacement of a match. -/
def replacement (found : List Char) : List Char → List Char
  | '\\' :: 'n' :: rest => '\n' :: replacement found rest
  | '\\' :: c :: rest => c :: replacement found rest
  | '&' :: rest => found ++ replacement found rest
  | c :: rest => c :: replacement found rest
  | [] => []

/-- The longest match at the first place that has one, from position `i` on. -/
def firstMatch (r : Pattern.Regex) (text : Array Char) : Nat → Nat → Option (Nat × Nat)
  | 0, _ => none
  | fuel + 1, i =>
    match (Pattern.Regex.ends text r i).max? with
    | some stop => some (i, stop)
    | none => firstMatch r text fuel (i + 1)

/-- A line with matches replaced: the first, or all. -/
def substitute (r : Pattern.Regex) (by_ : List Char) (all : Bool) (line : List Char) :
    Nat → Nat → List Char
  | 0, i => line.drop i
  | fuel + 1, i =>
    let text := line.toArray
    match firstMatch r text (line.length + 1 - i) i with
    | none => line.drop i
    | some (start, stop) =>
      let found := (line.take stop).drop start
      let done := (line.take start).drop i ++ replacement found by_
      if !all then done ++ line.drop stop
      else if stop = start then
        done ++ (line.drop stop).take 1 ++
          (if stop < line.length then substitute r by_ all line fuel (stop + 1) else [])
      else done ++ substitute r by_ all line fuel stop

/-- The parts of a text between unescaped separators. -/
def parts (sep : Char) : List Char → List (List Char)
  | [] => [[]]
  | '\\' :: c :: rest =>
    match parts sep rest with
    | [] => [[]]
    | p :: ps => (if c = sep then c :: p else '\\' :: c :: p) :: ps
  | c :: rest =>
    if c = sep then [] :: parts sep rest
    else
      match parts sep rest with
      | [] => [[c]]
      | p :: ps => (c :: p) :: ps

/-- The lines of the input with a substitution applied to each. -/
def edit? (script input : List Char) : Option (List Char) :=
  match script with
  | 's' :: sep :: rest =>
    match parts sep rest with
    | [pattern, by_, flags] =>
      (Pattern.Regex.read? ⟨flags.contains 'I', false, true⟩ (ofBasic pattern)).map fun r =>
        Text.join ['\n'] ((Text.pieces (· == '\n') input).map fun line =>
          substitute r by_ (flags.contains 'g') line (line.length + 1) 0)
    | _ => none
  | _ => none

/-! ### Translation of characters -/

/-- The characters of a set with ranges. -/
def charSet : List Char → List Char
  | a :: '-' :: b :: rest =>
    (List.range (b.toNat + 1 - a.toNat)).map (fun n => Char.ofNat (a.toNat + n)) ++ charSet rest
  | '\\' :: 'n' :: rest => '\n' :: charSet rest
  | c :: rest => c :: charSet rest
  | [] => []

/-- The character that one of a set is turned into. -/
def translate (source target : List Char) (c : Char) : Char :=
  match source.idxOf? c with
  | some i => target.getD i (target.getLastD c)
  | none => c

/-! ### Programs -/

/-- Runs a program that is not a shell; none is an unknown program. -/
def run? (name : String) (args : List (List Char)) (input : List Char) : Option Finished :=
  match name with
  | "true" => some {}
  | "false" => some { status := 1 }
  | "echo" => some { out := echo args }
  | "printf" =>
    match args with
    | [] => some { err := "printf: missing operand\n".toList, status := 1 }
    | text :: args => some { out := formatAll text (args.length + 1) args }
  | "cat" =>
    match args.find? (· != ['-']) with
    | none => some { out := input }
    | some file =>
      some { err := "cat: ".toList ++ file ++ ": No such file or directory\n".toList, status := 1 }
  | "sed" =>
    let scripts := args.filter (· != ['-', 'e'])
    match scripts with
    | [script] =>
      match edit? script input with
      | some out => some { out := out }
      | none => some { err := "sed: -e expression #1: unknown command\n".toList, status := 1 }
    | _ => some { err := "sed: no script specified\n".toList, status := 1 }
  | "tr" =>
    match args with
    | [['-', 'd'], set] => some { out := input.filter fun c => !(charSet set).contains c }
    | [source, target] => some { out := input.map (translate (charSet source) (charSet target)) }
    | _ => some { err := "tr: missing operand\n".toList, status := 1 }
  | _ => none

end Tool

end ScriptVault.Compile
