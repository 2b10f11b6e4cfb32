import ScriptVault.Decimal.Read
import ScriptVault.Json.Basic
import ScriptVault.Text.Pieces

/-!
# Read — JSON values from text

The reader accepts JSON as the standard has it, nested at most 127 deep.  White space is space, tab, line feed and
carriage return; a text may hold no control character and no unpaired surrogate; a number beyond the range of floating
point is refused; of equal keys of an object the last one counts.  A literal that cannot be read has a first fault, and
a column, which counts the bytes up to and with the one that shows it.
-/

namespace ScriptVault.Json

/-- White space between the tokens of a JSON text. -/
def isSpace (c : Char) : Bool := c == ' ' || c == '\t' || c == '\n' || c == '\r'

/-- Drops white space from the start. -/
def skip (s : List Char) : List Char := s.dropWhile isSpace

/-! ### Numbers -/

/-- The largest whole number that is kept exactly. -/
def wordMax : Nat := Nat.pow 2 64 - 1

/-- Scales by a power of ten the way that rounds once for each factor of at most `10 ^ 308`. -/
def scale (x : Float) (e : Int) : Nat → Option Float
  | 0 => none
  | fuel + 1 =>
    match e with
    | .ofNat n =>
      if n ≤ 308 then
        let y := x * Float.ofScientific 1 false n
        if y.isInf then none else some y
      else if x == 0.0 then some x
      else none
    | .negSucc n =>
      if n + 1 ≤ 308 then some (x / Float.ofScientific 1 false (n + 1))
      else if x == 0.0 then some x
      else scale (x / Float.ofScientific 1 false 308) (e + 308) fuel

/-- The digits that fit a word, and how many do not. -/
def fitWord (digits : List Char) (start : Nat) : Nat × List Char :=
  match digits with
  | [] => (start, [])
  | c :: rest =>
    let next := start * 10 + (c.toNat - 48)
    if next > wordMax then (start, c :: rest) else fitWord rest next

/-- A number's magnitude from its significant digits, exponent of ten and sign. -/
def realOf (negative : Bool) (significand : Nat) (e : Int) : Option Float :=
  let fuel := e.natAbs / 308 + 2
  let fuel := if fuel > 100 then 100 else fuel
  (scale (UInt64.ofNat significand).toFloat e fuel).map fun x => if negative then -x else x

/-- The exponent after an `e`, if there is one, and what follows. -/
def takeExponent : List Char → Option (Option Int × List Char)
  | c :: s =>
    if c == 'e' || c == 'E' then
      let (negative, s) := Decimal.takeSign s
      let digits := s.takeWhile Char.isDigit
      if digits.isEmpty then none
      else
        let n : Int := Decimal.digitsValue digits
        some (some (if negative then -n else n), s.dropWhile Char.isDigit)
    else some (none, c :: s)
  | [] => some (none, [])

/-- The largest exponent that is counted; a larger one is as good as infinite. -/
def exponentMax : Nat := Nat.pow 2 31 - 1

/-- The number made of significand, scale and written exponent. -/
def finish (negative : Bool) (significand : Nat) (e : Int) (written : Int) : Option Number :=
  if written.natAbs > exponentMax then
    if significand != 0 && 0 < written then none
    else some (.real (if negative then -0.0 else 0.0))
  else (realOf negative significand (e + written)).map .real

/-- A number, and what follows it. -/
def takeNumber (s : List Char) : Option (Number × List Char) :=
  let (negative, s) := match s with
    | '-' :: r => (true, r)
    | r => (false, r)
  let digits := s.takeWhile Char.isDigit
  let rest := s.dropWhile Char.isDigit
  if digits.isEmpty || (digits.head? == some '0' && 1 < digits.length) then none
  else
    let (significand, dropped) := fitWord digits 0
    let (places, rest', pointed) := match rest with
      | '.' :: r => (r.takeWhile Char.isDigit, r.dropWhile Char.isDigit, true)
      | r => ([], r, false)
    let (significand', droppedPlaces) := fitWord places significand
    if pointed && places.isEmpty then none
    else
      let e : Int := (dropped.length : Int) - ((places.length - droppedPlaces.length : Nat) : Int)
      match takeExponent rest' with
      | none => none
      | some (some written, rest'') =>
        (finish negative significand' e written).map fun n => (n, rest'')
      | some (none, rest'') =>
        if pointed || !dropped.isEmpty then
          (realOf negative significand' e).map fun x => (.real x, rest'')
        else if negative then
          if significand = 0 then some (.real (-0.0), rest'')
          else if significand ≤ Nat.pow 2 63 then some (.whole (-(significand : Int)), rest'')
          else some (.real (-(UInt64.ofNat significand).toFloat), rest'')
        else some (.whole significand, rest'')

/-! ### Texts -/

/-- The value of a digit of base sixteen. -/
def hexValue? (c : Char) : Option Nat :=
  if c.isDigit then some (c.toNat - 48)
  else if 'a' ≤ c && c ≤ 'f' then some (c.toNat - 87)
  else if 'A' ≤ c && c ≤ 'F' then some (c.toNat - 55)
  else none

/-- The value of exactly the given digits of base sixteen. -/
def hexNumber? (digits : List Char) : Option Nat :=
  digits.foldl (fun n c => do return (← n) * 16 + (← hexValue? c)) (some 0)

/-- The character of a simple escape. -/
def simpleEscape? (c : Char) : Option Char :=
  match c with
  | '\x22' => some '\x22'
  | '\\' => some '\\'
  | '/' => some '/'
  | 'b' => some (Char.ofNat 8)
  | 'f' => some (Char.ofNat 12)
  | 'n' => some '\n'
  | 'r' => some '\r'
  | 't' => some '\t'
  | _ => none

/-- The two units of a surrogate pair as one code point. -/
def ofSurrogates (high low : Nat) : Nat := 0x10000 + (high - 0xD800) * 0x400 + (low - 0xDC00)

/-- The characters up to the closing quote, and what follows it. -/
def takeText : List Char → List Char → Option (List Char × List Char)
  | [], _ => none
  | '\x22' :: rest, done => some (done.reverse, rest)
  | '\\' :: 'u' :: a :: b :: c :: d :: rest, done =>
    match hexNumber? [a, b, c, d] with
    | none => none
    | some unit =>
      if unit < 0xD800 || 0xE000 ≤ unit then takeText rest (Char.ofNat unit :: done)
      else if 0xDC00 ≤ unit then none
      else
        match rest with
        | '\\' :: 'u' :: e :: f :: g :: h :: rest' =>
          match hexNumber? [e, f, g, h] with
          | none => none
          | some low =>
            if 0xDC00 ≤ low && low < 0xE000 then
              takeText rest' (Char.ofNat (ofSurrogates unit low) :: done)
            else none
        | _ => none
  | '\\' :: c :: rest, done =>
    match simpleEscape? c with
    | some e => takeText rest (e :: done)
    | none => none
  | c :: rest, done => if c.toNat < 32 then none else takeText rest (c :: done)

/-! ### Values -/

/-- Items of an array up to its closing bracket; `value` reads one item. -/
def takeItems (value : List Char → Option (Json × List Char)) :
    Nat → List Char → List Json → Option (List Json × List Char)
  | 0, _, _ => none
  | fuel + 1, s, done =>
    match value s with
    | none => none
    | some (v, rest) =>
      match skip rest with
      | ',' :: rest' => takeItems value fuel rest' (v :: done)
      | ']' :: rest' => some ((v :: done).reverse, rest')
      | _ => none

/-- Members of an object up to its closing brace; `value` reads one member's value. -/
def takeMembers (value : List Char → Option (Json × List Char)) :
    Nat → List Char → List (String × Json) → Option (List (String × Json) × List Char)
  | 0, _, _ => none
  | fuel + 1, s, done =>
    match skip s with
    | '\x22' :: s' =>
      match takeText s' [] with
      | none => none
      | some (key, rest) =>
        match skip rest with
        | ':' :: rest' =>
          match value rest' with
          | none => none
          | some (v, rest'') =>
            let done := (String.ofList key, v) :: done
            match skip rest'' with
            | ',' :: r => takeMembers value fuel r done
            | '\x7d' :: r => some (done.reverse, r)
            | _ => none
        | _ => none
    | _ => none

/-- A value and what follows it; `depth` bounds how deep arrays and objects nest. -/
def takeValue : Nat → List Char → Option (Json × List Char)
  | depth, s =>
    match skip s with
    | [] => none
    | '\x22' :: rest => (takeText rest []).map fun (t, r) => (.text (String.ofList t), r)
    | '[' :: rest =>
      match depth with
      | 0 => none
      | depth + 1 =>
        match skip rest with
        | ']' :: r => some (.array [], r)
        | _ => (takeItems (takeValue depth) rest.length rest []).map fun (vs, r) => (.array vs, r)
    | '\x7b' :: rest =>
      match depth with
      | 0 => none
      | depth + 1 =>
        match skip rest with
        | '\x7d' :: r => some (.object [], r)
        | _ =>
          (takeMembers (takeValue depth) rest.length rest []).map fun (ms, r) => (ofMembers ms, r)
    | c :: rest =>
      if c == '-' || c.isDigit then (takeNumber (c :: rest)).map fun (n, r) => (.number n, r)
      else
        match c :: rest with
        | 't' :: 'r' :: 'u' :: 'e' :: r => some (.bool true, r)
        | 'f' :: 'a' :: 'l' :: 's' :: 'e' :: r => some (.bool false, r)
        | 'n' :: 'u' :: 'l' :: 'l' :: r => some (.null, r)
        | _ => none

/-- How deep arrays and objects may nest. -/
def maxDepth : Nat := 127

/-- The value that a text spells, if it spells one. -/
def read? (text : List Char) : Option Json :=
  match takeValue maxDepth text with
  | some (v, rest) => if (skip rest).isEmpty then some v else none
  | none => none

/-! ### What is wrong with a text literal -/

/-- The bytes of one hexadecimal escape after its letter. -/
def hexLength : Nat := 4

/-- The unit of a hexadecimal escape and what follows it, or the fault. -/
def takeUnit (column : Nat) (s : List Char) : Except (String × Nat) (Nat × List Char) :=
  let left := Text.byteLength s
  if left < hexLength then .error ("EOF while parsing a string", column + left)
  else
    match hexNumber? (s.take hexLength) with
    | some unit => .ok (unit, s.drop hexLength)
    | none => .error ("invalid escape", column + hexLength)

/-- The first fault of a literal after its opening quote; `column` bytes stand before `s`. -/
def textFault : Nat → Nat → List Char → Option (String × Nat)
  | 0, _, _ => none
  | _ + 1, column, [] => some ("EOF while parsing a string", column)
  | fuel + 1, column, c :: s =>
    if c == '\x22' then none
    else if c == '\\' then
      match s with
      | [] => some ("EOF while parsing a string", column + 1)
      | 'u' :: s =>
        match takeUnit (column + 2) s with
        | .error fault => some fault
        | .ok (unit, s) =>
          let column := column + 2 + hexLength
          if unit < 0xD800 || 0xE000 ≤ unit then textFault fuel column s
          else if 0xDC00 ≤ unit then some ("lone leading surrogate in hex escape", column)
          else
            match s with
            | '\\' :: 'u' :: s =>
              match takeUnit (column + 2) s with
              | .error fault => some fault
              | .ok (low, s) =>
                let column := column + 2 + hexLength
                if low < 0xDC00 || 0xE000 ≤ low then
                  some ("lone leading surrogate in hex escape", column)
                else textFault fuel column s
            | '\\' :: _ => some ("unexpected end of hex escape", column + 2)
            | _ => some ("unexpected end of hex escape", column + 1)
      | letter :: s =>
        if (simpleEscape? letter).isSome then textFault fuel (column + 2) s
        else some ("invalid escape", column + 2)
    else if c.toNat < 32 then
      some ("control character (\\u0000-\\u001F) found while parsing a string", column + 1)
    else textFault fuel (column + c.utf8Size) s

/-- The value of a text literal, or what is wrong with it. -/
def readText (literal : List Char) : Except String String :=
  match read? literal with
  | some (.text s) => .ok s
  | _ =>
    let (reason, column) := (textFault literal.length 1 (literal.drop 1)).getD ("invalid value", 1)
    .error (reason ++ " at line 1 column " ++ toString column)

end ScriptVault.Json
