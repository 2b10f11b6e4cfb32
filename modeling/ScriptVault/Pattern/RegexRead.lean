import ScriptVault.Json.Read
import ScriptVault.Pattern.Regex

/-!
# RegexRead — regular expressions from text

Flags decide while reading how letters, dots and line anchors are understood.  A text that is no
expression gives nothing.
-/

namespace ScriptVault.Pattern.Regex

/-- How an expression is understood. -/
structure Flags where
  /-- Letters match without regard to case. -/
  ignoreCase : Bool
  /-- `^` and `$` stand for the ends of lines. -/
  multiLine : Bool
  /-- The dot also stands for a line feed. -/
  dotAll : Bool
  deriving DecidableEq, Repr

/-- One member of a character class. -/
abbrev Accepts := Char → Bool

/-- Accepts what shares its case folding with an accepted character, if case is to be ignored. -/
def cased (flags : Flags) (accepts : Accepts) : Accepts :=
  if flags.ignoreCase then fun c => accepts c || (Text.caseOrbit c).any accepts else accepts

/-- Accepts one character. -/
def just (c : Char) : Accepts := (· == c)

/-- Accepts a range of characters. -/
def between (lo hi : Char) : Accepts := fun c => lo ≤ c && c ≤ hi

/-- The class that a letter after a backslash names. -/
def namedClass? (c : Char) : Option Accepts :=
  match c with
  | 'd' => some Text.isDigit
  | 'D' => some (!Text.isDigit ·)
  | 'w' => some Text.isWord
  | 'W' => some (!Text.isWord ·)
  | 's' => some Text.isBlank
  | 'S' => some (!Text.isBlank ·)
  | _ => none

/-- The anchor that a letter after a backslash names. -/
def namedAnchor? (c : Char) : Option Anchor :=
  match c with
  | 'b' => some .wordEdge
  | 'B' => some .noWordEdge
  | 'A' => some .textStart
  | 'z' => some .textEnd
  | '<' => some .wordStart
  | '>' => some .wordEnd
  | _ => none

/-- The code point of some digits of base sixteen, if it is a character. -/
def charOfHex? (digits : List Char) : Option Char := do
  let n ← Json.hexNumber? digits
  if digits.isEmpty || !(n < 0xD800 || (0xE000 ≤ n && n < 0x110000)) then none
  else some (Char.ofNat n)

/-- The character of a code point escape with `width` digits or with digits in braces. -/
def takeHex? (width : Nat) (s : List Char) : Option (Char × List Char) :=
  match s with
  | '\x7b' :: rest =>
    match rest.dropWhile (· != '\x7d') with
    | _ :: after => (charOfHex? (rest.takeWhile (· != '\x7d'))).map fun c => (c, after)
    | [] => none
  | _ =>
    if s.length < width then none
    else (charOfHex? (s.take width)).map fun c => (c, s.drop width)

/-- The character that an escape other than a class or anchor stands for. -/
def takeEscape? (s : List Char) : Option (Char × List Char) :=
  match s with
  | [] => none
  | c :: rest =>
    match c with
    | 'n' => some ('\n', rest)
    | 't' => some ('\t', rest)
    | 'r' => some ('\r', rest)
    | 'a' => some (Char.ofNat 7, rest)
    | 'f' => some (Char.ofNat 12, rest)
    | 'v' => some (Char.ofNat 11, rest)
    | 'x' => takeHex? 2 rest
    | 'u' => takeHex? 4 rest
    | 'U' => takeHex? 8 rest
    | _ =>
      if c.toNat < 128 && !c.isAlphanum && c != '<' && c != '>' then some (c, rest) else none

/-! ### Classes -/

/-- The class between `[:` and `:]`. -/
def posixClass? (name : String) : Option Accepts :=
  match name with
  | "alnum" => some Char.isAlphanum
  | "alpha" => some Char.isAlpha
  | "ascii" => some (·.toNat < 128)
  | "blank" => some fun c => c == ' ' || c == '\t'
  | "cntrl" => some fun c => c.toNat < 32 || c.toNat == 127
  | "digit" => some Char.isDigit
  | "graph" => some fun c => 33 ≤ c.toNat && c.toNat ≤ 126
  | "lower" => some Char.isLower
  | "print" => some fun c => 32 ≤ c.toNat && c.toNat ≤ 126
  | "punct" => some fun c => 33 ≤ c.toNat && c.toNat ≤ 126 && !c.isAlphanum
  | "space" => some fun c => (9 ≤ c.toNat && c.toNat ≤ 13) || c == ' '
  | "upper" => some Char.isUpper
  | "word" => some fun c => c.isAlphanum || c == '_'
  | "xdigit" => some fun c => (Json.hexValue? c).isSome
  | _ => none

/-- A class named between `[:` and `:]`, after its opening bracket. -/
def takePosix? (s : List Char) : Option (Accepts × List Char) :=
  match s with
  | ':' :: rest =>
    let (negated, rest) := match rest with
      | '^' :: r => (true, r)
      | r => (false, r)
    match rest.dropWhile (· != ':') with
    | ':' :: ']' :: after =>
      (posixClass? (String.ofList (rest.takeWhile (· != ':')))).map fun accepts =>
        (if negated then (!accepts ·) else accepts, after)
    | _ => none
  | _ => none

/-- A member of a class: a named class or a single character. -/
inductive Member where
  /-- All characters of a class. -/
  | all (accepts : Accepts)
  /-- One character, which may begin a range. -/
  | single (c : Char)

/-- What a member accepts. -/
def Member.accepts : Member → Accepts
  | all accepts => accepts
  | single c => just c

/-- A member of a class that is not a nested class. -/
def takeMember? (s : List Char) : Option (Member × List Char) :=
  match s with
  | [] => none
  | '\\' :: c :: rest =>
    match namedClass? c with
    | some accepts => some (.all accepts, rest)
    | none => (takeEscape? (c :: rest)).map fun (e, r) => (.single e, r)
  | c :: rest => some (.single c, rest)

/-- What follows the dash of a range, where there is one; before another dash or the end of the class a dash
stands for itself. -/
def takeRangeEnd? : List Char → Option (List Char)
  | '-' :: after =>
    if after.head? == some ']' || after.head? == some '-' || after.isEmpty then none else some after
  | _ => none

/-- How two classes are combined. -/
inductive Combine where
  /-- Both. -/
  | both
  /-- The first without the second. -/
  | minus
  /-- One but not the other. -/
  | either
  deriving DecidableEq

/-- Two classes as one. -/
def Combine.apply : Combine → Accepts → Accepts → Accepts
  | both, a, b => fun c => a c && b c
  | minus, a, b => fun c => a c && !b c
  | either, a, b => fun c => a c != b c

/-- An operator between classes, at the start. -/
def takeCombine? : List Char → Option (Combine × List Char)
  | '&' :: '&' :: rest => some (.both, rest)
  | '-' :: '-' :: rest => some (.minus, rest)
  | '~' :: '~' :: rest => some (.either, rest)
  | _ => none

/-- What is combined so far, with the class that is being read. -/
def combined (left : Option (Accepts × Combine)) (now : Accepts) : Accepts :=
  match left with
  | none => now
  | some (accepts, how) => how.apply accepts now

mutual

/-- The members of a class up to its closing bracket. -/
def takeMembers (flags : Flags) :
    Nat → Option (Accepts × Combine) → Accepts → List Char → Option (Accepts × List Char)
  | 0, _, _, _ => none
  | fuel + 1, left, now, s =>
    match s with
    | [] => none
    | ']' :: rest => some (combined left now, rest)
    | '[' :: rest =>
      match takePosix? rest with
      | some (accepts, after) =>
        takeMembers flags fuel left (fun c => now c || cased flags accepts c) after
      | none =>
        match takeClass flags fuel rest with
        | some (accepts, after) => takeMembers flags fuel left (fun c => now c || accepts c) after
        | none => none
    | _ =>
      match takeCombine? s with
      | some (how, rest) =>
        takeMembers flags fuel (some (combined left now, how)) (fun _ => false) rest
      | none =>
        match takeMember? s with
        | none => none
        | some (member, rest) =>
          match takeRangeEnd? rest with
          | none =>
            takeMembers flags fuel left (fun c => now c || cased flags member.accepts c) rest
          | some after =>
            match member, takeMember? after with
            | .single a, some (.single b, rest') =>
              if b < a then none
              else takeMembers flags fuel left (fun c => now c || cased flags (between a b) c) rest'
            | _, _ => none

/-- A class after its opening bracket. -/
def takeClass (flags : Flags) : Nat → List Char → Option (Accepts × List Char)
  | 0, _ => none
  | fuel + 1, s =>
    let (negated, s) := match s with
      | '^' :: rest => (true, rest)
      | rest => (false, rest)
    let dashes := s.takeWhile (· == '-')
    let s := s.dropWhile (· == '-')
    let (bracket, s) := match s with
      | ']' :: rest => if dashes.isEmpty then ([']'], rest) else ([], s)
      | rest => ([], rest)
    let start : Accepts := fun c => (dashes ++ bracket).contains c
    match takeMembers flags fuel none start s with
    | some (accepts, rest) => some (if negated then (!accepts ·) else accepts, rest)
    | none => none

end

/-! ### Expressions -/

/-- The bounds in braces of a repetition, after the opening brace. -/
def takeBounds? (s : List Char) : Option (Nat × Option Nat × List Char) :=
  let digits := s.takeWhile Char.isDigit
  let rest := s.dropWhile Char.isDigit
  if digits.isEmpty then none
  else
    let least := Decimal.digitsValue digits
    match rest with
    | '\x7d' :: after => some (least, some least, after)
    | ',' :: '\x7d' :: after => some (least, none, after)
    | ',' :: more =>
      let digits' := more.takeWhile Char.isDigit
      match more.dropWhile Char.isDigit with
      | '\x7d' :: after =>
        let most := Decimal.digitsValue digits'
        if digits'.isEmpty || most < least then none else some (least, some most, after)
      | _ => none
    | _ => none

/-- Flags as they are written, the ones after a minus taken back; none is written twice. -/
def setFlags (flags : Flags) : Bool → List Char → Option Flags
  | _, [] => some flags
  | on, c :: rest =>
    if rest.contains c then none
    else
      match c with
      | 'i' => setFlags { flags with ignoreCase := on } on rest
      | 'm' => setFlags { flags with multiLine := on } on rest
      | 's' => setFlags { flags with dotAll := on } on rest
      | 'u' => setFlags flags on rest
      | 'U' => setFlags flags on rest
      | '-' => if on && !rest.isEmpty then setFlags flags false rest else none
      | _ => none

/-- The name of a group and what follows it. -/
def takeName? (s : List Char) : Option (List Char) :=
  let name := s.takeWhile (· != '>')
  match s.dropWhile (· != '>') with
  | _ :: rest =>
    match name with
    | c :: cs =>
      if (c == '_' || c.isAlpha) && cs.all fun d => d == '_' || d.isAlphanum then some rest else none
    | [] => none
  | [] => none

/-- How a group opens. -/
inductive Opening where
  /-- A group with flags of its own, and its text. -/
  | group (flags : Flags) (rest : List Char)
  /-- Flags for what is left of the group around. -/
  | set (flags : Flags) (rest : List Char)

/-- The opening of a group after its parenthesis. -/
def takeOpening? (flags : Flags) (s : List Char) : Option Opening :=
  match s with
  | '?' :: 'P' :: '<' :: rest => (takeName? rest).map (.group flags)
  | '?' :: '<' :: rest => (takeName? rest).map (.group flags)
  | '?' :: rest =>
    let isEnd (c : Char) : Bool := c == ':' || c == ')'
    let written := rest.takeWhile (!isEnd ·)
    match rest.dropWhile (!isEnd ·) with
    | ':' :: after => (setFlags flags true written).map fun f => .group f after
    | ')' :: after =>
      if written.isEmpty then none else (setFlags flags true written).map fun f => .set f after
    | _ => none
  | rest => some (.group flags rest)

/-- A single expression that is not a group. -/
def takeAtom? (flags : Flags) (s : List Char) : Option (Regex × List Char) :=
  match s with
  | [] => none
  | '\\' :: c :: rest =>
    match namedClass? c, namedAnchor? c with
    | some accepts, _ => some (.one (cased flags accepts), rest)
    | none, some place => some (.anchor place, rest)
    | none, none => (takeEscape? (c :: rest)).map fun (e, r) => (.one (cased flags (just e)), r)
  | '\\' :: [] => none
  | '.' :: rest =>
    some (.one (if flags.dotAll then fun _ => true else (· != '\n')), rest)
  | '^' :: rest => some (.anchor (if flags.multiLine then .lineStart else .textStart), rest)
  | '$' :: rest => some (.anchor (if flags.multiLine then .lineEnd else .textEnd), rest)
  | '[' :: rest =>
    (takeClass flags (s.length + 1) rest).map fun (accepts, r) => (.one accepts, r)
  | c :: rest => some (.one (cased flags (just c)), rest)

/-- What a repetition operator makes of an expression; the lazy mark changes no match. -/
def takeRepeat? (body : Regex) (s : List Char) : Option (Option (Regex × List Char)) :=
  let unlazy : List Char → List Char
    | '?' :: rest => rest
    | rest => rest
  match s with
  | '*' :: rest => some (some (.repeated body 0 none, unlazy rest))
  | '+' :: rest => some (some (.repeated body 1 none, unlazy rest))
  | '?' :: rest => some (some (.repeated body 0 (some 1), unlazy rest))
  | '\x7b' :: rest =>
    match takeBounds? rest with
    | some (least, most, after) => some (some (.repeated body least most, unlazy after))
    | none => none
  | _ => some none

/-- Applies the repetition operators that follow an expression. -/
def takeRepeats : Nat → Regex → List Char → Option (Regex × List Char)
  | 0, body, s => some (body, s)
  | fuel + 1, body, s =>
    match takeRepeat? body s with
    | none => none
    | some none => some (body, s)
    | some (some (body', rest)) => takeRepeats fuel body' rest

/-- Alternatives up to a closing parenthesis or the end; `left` and `done` are what is read already. -/
def takeAlternatives :
    Nat → Flags → Option Regex → Regex → List Char → Option (Regex × List Char)
  | 0, _, _, _, _ => none
  | fuel + 1, flags, left, done, s =>
    let whole : Regex := match left with
      | some l => .alt l done
      | none => done
    match s with
    | [] => some (whole, [])
    | ')' :: _ => some (whole, s)
    | '|' :: rest => takeAlternatives fuel flags (some whole) .empty rest
    | '*' :: _ => none
    | '+' :: _ => none
    | '?' :: _ => none
    | '\x7b' :: _ => none
    | '(' :: rest =>
      match takeOpening? flags rest with
      | none => none
      | some (.set flags' after) =>
        match after with
        | '*' :: _ => none
        | '+' :: _ => none
        | '?' :: _ => none
        | _ => takeAlternatives fuel flags' left done after
      | some (.group flags' inside) =>
        match takeAlternatives fuel flags' none .empty inside with
        | some (body, ')' :: after) =>
          match takeRepeats after.length body after with
          | some (r, after') => takeAlternatives fuel flags left (.seq done r) after'
          | none => none
        | _ => none
    | _ =>
      match takeAtom? flags s with
      | none => none
      | some (atom, after) =>
        match takeRepeats after.length atom after with
        | some (r, after') => takeAlternatives fuel flags left (.seq done r) after'
        | none => none

/-- The expression that a text spells. -/
def read? (flags : Flags) (text : List Char) : Option Regex :=
  match takeAlternatives (2 * text.length + 2) flags none .empty text with
  | some (r, []) => some r
  | _ => none

end ScriptVault.Pattern.Regex
