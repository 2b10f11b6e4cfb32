import ScriptVault.Decimal.Read
import ScriptVault.Json.Read
import ScriptVault.Toml.Basic

/-!
# Read — settings documents from text

The reader follows version 1.0 of the format: keys with dots, four kinds of strings, numbers in
four bases, dates and times, arrays over several lines, inline tables and headers.
-/

namespace ScriptVault.Toml

/-! ### Blanks, comments and line ends -/

/-- White space inside a line. -/
def isSpace (c : Char) : Bool := c == ' ' || c == '\t'

/-- Drops white space inside a line. -/
def skip (s : List Char) : List Char := s.dropWhile isSpace

/-- A character that may stand in a comment or a string. -/
def isPlain (c : Char) : Bool := c == '\t' || (32 ≤ c.toNat && c.toNat != 127)

/-- What follows a line end. -/
def lineEnd? : List Char → Option (List Char)
  | '\n' :: s => some s
  | '\r' :: '\n' :: s => some s
  | _ => none

/-- Drops a comment up to the line end. -/
def skipComment (s : List Char) : List Char :=
  match s with
  | '#' :: rest => rest.dropWhile isPlain
  | _ => s

/-- What follows the line on which an entry ended. -/
def endOfLine? (s : List Char) : Option (List Char) :=
  match skipComment (skip s) with
  | [] => some []
  | rest => lineEnd? rest

/-- Drops white space, line ends and comments. -/
def skipLines : Nat → List Char → List Char
  | 0, s => s
  | fuel + 1, s =>
    let s := skip s
    match lineEnd? s with
    | some rest => skipLines fuel rest
    | none =>
      match s with
      | '#' :: rest =>
        match lineEnd? (rest.dropWhile isPlain) with
        | some rest => skipLines fuel rest
        | none => s
      | _ => s

/-! ### Strings -/

/-- The character that an escape stands for, and what follows it. -/
def takeEscape? : List Char → Option (Char × List Char)
  | 'b' :: s => some (Char.ofNat 8, s)
  | 't' :: s => some ('\t', s)
  | 'n' :: s => some ('\n', s)
  | 'f' :: s => some (Char.ofNat 12, s)
  | 'r' :: s => some ('\r', s)
  | '\x22' :: s => some ('\x22', s)
  | '\\' :: s => some ('\\', s)
  | 'u' :: s => point? 4 s
  | 'U' :: s => point? 8 s
  | _ => none
where
  /-- The character with the code point that some digits spell. -/
  point? (width : Nat) (s : List Char) : Option (Char × List Char) :=
    if s.length < width then none
    else
      (Json.hexNumber? (s.take width)).bind fun n =>
        if n.isValidChar then some (Char.ofNat n, s.drop width) else none

/-- The rest of a string between double quotes. -/
def takeBasic : Nat → List Char → List Char → Option (List Char × List Char)
  | 0, _, _ => none
  | fuel + 1, s, done =>
    match s with
    | [] => none
    | '\x22' :: rest => some (done.reverse, rest)
    | '\\' :: rest => (takeEscape? rest).bind fun (c, rest) => takeBasic fuel rest (c :: done)
    | c :: rest => if isPlain c then takeBasic fuel rest (c :: done) else none

/-- The rest of a string between single quotes. -/
def takeLiteral (s : List Char) : Option (List Char × List Char) :=
  match s.dropWhile fun c => isPlain c && c != '\x27' with
  | '\x27' :: rest => some (s.takeWhile fun c => isPlain c && c != '\x27', rest)
  | _ => none

/-- The quotes at the end of a string over several lines: three close it, and up to two more belong to
its text. -/
def closing? (quote : Char) (s : List Char) : Option (List Char × List Char) :=
  let run := (s.takeWhile (· == quote)).length
  if run < 3 then none
  else if 5 < run then none
  else some (List.replicate (run - 3) quote, s.drop run)

/-- The rest of a string over several lines; `escapes` tells the two kinds apart. -/
def takeLong (quote : Char) (escapes : Bool) :
    Nat → List Char → List Char → Option (List Char × List Char)
  | 0, _, _ => none
  | fuel + 1, s, done =>
    match s with
    | [] => none
    | c :: rest =>
      if c == quote then
        match closing? quote s with
        | some (more, rest) => some (done.reverse ++ more, rest)
        | none =>
          let run := (s.takeWhile (· == quote)).length
          if 2 < run then none
          else takeLong quote escapes fuel (s.drop run) (List.replicate run quote ++ done)
      else if escapes && c == '\\' then
        match lineEnd? (skip rest) with
        | some rest => takeLong quote escapes fuel (blankLines (rest.length + 1) rest) done
        | none => (takeEscape? rest).bind fun (e, rest) => takeLong quote escapes fuel rest (e :: done)
      else
        match lineEnd? s with
        | some rest => takeLong quote escapes fuel rest ('\n' :: done)
        | none => if isPlain c then takeLong quote escapes fuel rest (c :: done) else none
where
  /-- Drops white space and line ends. -/
  blankLines : Nat → List Char → List Char
    | 0, s => s
    | fuel + 1, s =>
      match lineEnd? (skip s) with
      | some rest => blankLines fuel rest
      | none => skip s

/-- The text without the line end with which it begins. -/
def dropLineEnd (s : List Char) : List Char := (lineEnd? s).getD s

/-- A string of any kind, and what follows it. -/
def takeString? (s : List Char) : Option (List Char × List Char) :=
  match s with
  | '\x22' :: '\x22' :: '\x22' :: rest => takeLong '\x22' true (s.length + 1) (dropLineEnd rest) []
  | '\x27' :: '\x27' :: '\x27' :: rest => takeLong '\x27' false (s.length + 1) (dropLineEnd rest) []
  | '\x22' :: rest => takeBasic (s.length + 1) rest []
  | '\x27' :: rest => takeLiteral rest
  | _ => none

/-! ### Keys -/

/-- A character of a key without quotes. -/
def isBare (c : Char) : Bool := c.isAlphanum || c == '_' || c == '-'

/-- One part of a key. -/
def takeSimpleKey? (s : List Char) : Option (String × List Char) :=
  match s with
  | '\x22' :: rest => (takeBasic (s.length + 1) rest []).map fun (k, r) => (String.ofList k, r)
  | '\x27' :: rest => (takeLiteral rest).map fun (k, r) => (String.ofList k, r)
  | _ =>
    let name := s.takeWhile isBare
    if name.isEmpty then none else some (String.ofList name, s.dropWhile isBare)

/-- The parts of a key with dots, and what follows it and its white space. -/
def takeKey? : Nat → List Char → Option (List String × List Char)
  | 0, _ => none
  | fuel + 1, s =>
    match takeSimpleKey? (skip s) with
    | none => none
    | some (part, rest) =>
      match skip rest with
      | '.' :: rest => (takeKey? fuel rest).map fun (parts, r) => (part :: parts, r)
      | rest => some ([part], rest)

/-- A key as its path and its last part. -/
def splitKey (parts : List String) : List String × String := (parts.dropLast, parts.getLastD "")

/-! ### Numbers and moments -/

/-- A run of digits with single underscores between them, and what follows it. -/
def takeDigits? (isDigit : Char → Bool) (s : List Char) : Option (List Char × List Char) :=
  let run := s.takeWhile fun c => isDigit c || c == '_'
  let rest := s.dropWhile fun c => isDigit c || c == '_'
  if run.isEmpty || run.head? == some '_' || run.getLast? == some '_' || doubled run then none
  else some (run.filter (· != '_'), rest)
where
  /-- Two underscores stand side by side. -/
  doubled : List Char → Bool
    | '_' :: '_' :: _ => true
    | _ :: rest => doubled rest
    | [] => false

/-- The whole number is one of 64 bits. -/
def word? (n : Int) : Option Toml :=
  if -9223372036854775808 ≤ n && n ≤ 9223372036854775807 then some (.whole n) else none

/-- The number that digits spell in a base. -/
def inBase (base : Nat) (digits : List Char) : Nat :=
  digits.foldl (fun n c => n * base + (Json.hexValue? c).getD 0) 0

/-- A number with a base before it. -/
def takeBased? (base : Nat) (isDigit : Char → Bool) (s : List Char) : Option (Toml × List Char) := do
  let (digits, rest) ← takeDigits? isDigit s
  return (← word? (inBase base digits), rest)

/-- The exponent of a number. -/
def takeExponent? : List Char → Option (List Char × List Char)
  | c :: s =>
    if c == 'e' || c == 'E' then do
      let sign := s.take 1 |>.filter fun c => c == '+' || c == '-'
      let (digits, rest) ← takeDigits? Char.isDigit (s.drop sign.length)
      return ('e' :: sign ++ digits, rest)
    else some ([], c :: s)
  | [] => some ([], [])

/-- The places after the point of a number. -/
def takePlaces? : List Char → Option (List Char × List Char)
  | '.' :: s => (takeDigits? Char.isDigit s).map fun (digits, rest) => ('.' :: digits, rest)
  | s => some ([], s)

/-- A number in base ten. -/
def takeDecimal? (s : List Char) : Option (Toml × List Char) := do
  let sign := s.take 1 |>.filter fun c => c == '+' || c == '-'
  let s := s.drop sign.length
  let negative := sign == ['-']
  match s with
  | 'i' :: 'n' :: 'f' :: rest => return (.real (if negative then -1.0 / 0.0 else 1.0 / 0.0), rest)
  | 'n' :: 'a' :: 'n' :: rest => return (.real (0.0 / 0.0), rest)
  | _ =>
    let (digits, rest) ← takeDigits? Char.isDigit s
    guard (digits.length = 1 || digits.head? != some '0')
    let (places, rest) ← takePlaces? rest
    let (exponent, rest) ← takeExponent? rest
    if places.isEmpty && exponent.isEmpty then
      let n : Int := Decimal.digitsValue digits
      return (← word? (if negative then -n else n), rest)
    else
      let x ← Decimal.ofText? (String.ofList (sign ++ digits ++ places ++ exponent))
      guard !(x.isInf && 0.0 < x)
      return (.real x, rest)

/-- A number of exactly the given count of digits. -/
def takeFixed? (width : Nat) (s : List Char) : Option (Nat × List Char) :=
  let digits := s.take width
  if digits.length = width && digits.all Char.isDigit then
    some (Decimal.digitsValue digits, s.drop width)
  else none

/-- What follows a given character. -/
def expect? (c : Char) (s : List Char) : Option (List Char) :=
  match s with
  | d :: rest => if c = d then some rest else none
  | [] => none

/-- The days of a month. -/
def daysOf (year month : Nat) : Nat :=
  if month = 2 then
    if year % 4 = 0 && (year % 100 != 0 || year % 400 = 0) then 29 else 28
  else if [4, 6, 9, 11].contains month then 30
  else 31

/-- What follows a date. -/
def afterDate? (s : List Char) : Option (List Char) := do
  let (year, s) ← takeFixed? 4 s
  let (month, s) ← takeFixed? 2 (← expect? '-' s)
  let (day, s) ← takeFixed? 2 (← expect? '-' s)
  guard (1 ≤ month && month ≤ 12 && 1 ≤ day && day ≤ daysOf year month)
  return s

/-- What follows a time of day. -/
def afterTime? (s : List Char) : Option (List Char) := do
  let (hour, s) ← takeFixed? 2 s
  let (minute, s) ← takeFixed? 2 (← expect? ':' s)
  let (second, s) ← takeFixed? 2 (← expect? ':' s)
  guard (hour ≤ 23 && minute ≤ 59 && second ≤ 60)
  match s with
  | '.' :: rest =>
    guard (rest.head?.any Char.isDigit)
    return rest.dropWhile Char.isDigit
  | _ => return s

/-- What follows the distance of a time zone, if there is one. -/
def afterZone? : List Char → Option (List Char)
  | [] => some []
  | c :: s =>
    if c == 'Z' || c == 'z' then some s
    else if c == '+' || c == '-' then do
      let (hour, s) ← takeFixed? 2 s
      let (minute, s) ← takeFixed? 2 (← expect? ':' s)
      guard (hour ≤ 23 && minute ≤ 59)
      return s
    else some (c :: s)

/-- The text begins like a date. -/
def looksLikeDate (s : List Char) : Bool :=
  match takeFixed? 4 s with
  | some (_, '-' :: _) => true
  | _ => false

/-- The text begins like a time of day. -/
def looksLikeTime (s : List Char) : Bool :=
  match takeFixed? 2 s with
  | some (_, ':' :: _) => true
  | _ => false

/-- What follows a date, a time or both. -/
def afterMoment? (s : List Char) : Option (List Char) :=
  if looksLikeTime s then afterTime? s
  else do
    let s ← afterDate? s
    match s with
    | c :: rest =>
      if c == 'T' || c == 't' || (c == ' ' && looksLikeTime rest) then
        afterZone? (← afterTime? rest)
      else return s
    | [] => return []

/-- A number or a moment. -/
def takeNumber? (s : List Char) : Option (Toml × List Char) :=
  if looksLikeDate s || looksLikeTime s then (afterMoment? s).map fun rest => (.moment, rest)
  else
    match s with
    | '0' :: 'x' :: rest => takeBased? 16 (fun c => (Json.hexValue? c).isSome) rest
    | '0' :: 'o' :: rest => takeBased? 8 (fun c => '0' ≤ c && c ≤ '7') rest
    | '0' :: 'b' :: rest => takeBased? 2 (fun c => c == '0' || c == '1') rest
    | _ => takeDecimal? s

/-! ### Values -/

/-- The items of an array after its opening bracket. -/
def takeItems (value : List Char → Option (Toml × List Char)) :
    Nat → List Char → Option (List Toml × List Char)
  | 0, _ => none
  | fuel + 1, s =>
    match skipLines (s.length + 1) s with
    | ']' :: rest => some ([], rest)
    | s =>
      match value s with
      | none => none
      | some (v, rest) =>
        match skipLines (rest.length + 1) rest with
        | ',' :: rest => (takeItems value fuel rest).map fun (vs, r) => (v :: vs, r)
        | ']' :: rest => some ([v], rest)
        | _ => none

/-- A key, its value, and what follows them. -/
def takeEntry (value : List Char → Option (Toml × List Char)) (s : List Char) :
    Option ((List String × String) × Toml × List Char) := do
  let (parts, rest) ← takeKey? (s.length + 1) s
  let (v, rest) ← value (skip (← expect? '=' rest))
  return (splitKey parts, v, rest)

/-- The entries of an inline table up to its closing brace. -/
def takeEntries (value : List Char → Option (Toml × List Char)) :
    Nat → List Char → Entries → Option (Entries × List Char)
  | 0, _, _ => none
  | fuel + 1, s, entries =>
    match takeEntry value s with
    | none => none
    | some ((path, key), v, rest) =>
      match bind path key v .inline entries with
      | none => none
      | some entries =>
        match skip rest with
        | ',' :: rest => takeEntries value fuel rest entries
        | '\x7d' :: rest => some (entries, rest)
        | _ => none

/-- A value and what follows it; `depth` bounds how deep arrays and inline tables nest. -/
def takeValue : Nat → List Char → Option (Toml × List Char)
  | depth, s =>
    match s with
    | [] => none
    | '[' :: rest =>
      match depth with
      | 0 => none
      | depth + 1 =>
        (takeItems (takeValue depth) (rest.length + 1) rest).map fun (vs, r) => (.array vs, r)
    | '\x7b' :: rest =>
      match depth with
      | 0 => none
      | depth + 1 =>
        match skip rest with
        | '\x7d' :: r => some (.table .inline [], r)
        | inside =>
          (takeEntries (takeValue depth) (rest.length + 1) inside []).map fun (es, r) =>
            (.table .inline es, r)
    | 't' :: 'r' :: 'u' :: 'e' :: rest => some (.bool true, rest)
    | 'f' :: 'a' :: 'l' :: 's' :: 'e' :: rest => some (.bool false, rest)
    | c :: _ =>
      if c == '\x22' || c == '\x27' then
        (takeString? s).map fun (t, r) => (.text (String.ofList t), r)
      else takeNumber? s

/-- How deep arrays and inline tables may nest. -/
def maxDepth : Nat := 79

/-! ### Documents -/

/-- The header of a table, and what follows it. -/
def takeHeader? (s : List Char) : Option ((List String × String) × List Char) := do
  let (parts, rest) ← takeKey? (s.length + 1) s
  return (splitKey parts, ← expect? ']' rest)

/-- Reads line after line; `header` leads to the table that the last header opened. -/
def readLines : Nat → List String → Entries → List Char → Option Entries
  | 0, _, _, _ => none
  | fuel + 1, header, document, s =>
    match skipLines (s.length + 1) s with
    | [] => some document
    | '[' :: '[' :: rest => do
      let ((path, key), rest) ← takeHeader? rest
      let rest ← endOfLine? (← expect? ']' rest)
      readLines fuel (path ++ [key]) (← openTables path key document) rest
    | '[' :: rest => do
      let ((path, key), rest) ← takeHeader? rest
      let rest ← endOfLine? rest
      readLines fuel (path ++ [key]) (← openTable path key document) rest
    | '#' :: rest => if (rest.dropWhile isPlain).isEmpty then some document else none
    | s => do
      let ((path, key), v, rest) ← takeEntry (takeValue maxDepth) s
      let rest ← endOfLine? rest
      readLines fuel header (← bindUnder header path key v document) rest

/-- The text without a byte order mark. -/
def dropMark : List Char → List Char
  | c :: rest => if c.toNat = 0xFEFF then rest else c :: rest
  | [] => []

/-- The entries of the document that a text spells. -/
def read? (text : List Char) : Option Entries :=
  let s := dropMark text
  readLines (s.length + 1) [] [] s

end ScriptVault.Toml
