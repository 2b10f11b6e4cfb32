import ScriptVault.Script.Token
import ScriptVault.Text.Blank
import ScriptVault.Text.Identifier
import ScriptVault.Text.Pieces

/-!
# Scanner — the tokens of a source

The scanner knows comments, strings, templates and regular expressions well enough that no code inside
one of them is taken for a token.  Whether a slash divides is told by the token before it, and whether a
closing brace goes on with a template by the braces that are open.
-/

namespace ScriptVault.Script

/-- What the scanner knows between two tokens. -/
structure Cursor where
  /-- The characters that are not yet read. -/
  rest : List Char
  /-- The bytes that are read. -/
  pos : Nat
  /-- The open braces, the innermost first; true for those of a template. -/
  braces : List Bool
  /-- The token before ends an expression. -/
  afterExpression : Bool
  deriving DecidableEq, Repr

/-! ### Blanks and comments -/

/-- Drops the rest of a line. -/
def skipLine (s : List Char) : List Char := s.dropWhile fun c => c != '\n' && c != '\r'

/-- What follows the end of a comment. -/
def skipComment? : List Char → Option (List Char)
  | '*' :: '/' :: rest => some rest
  | _ :: rest => skipComment? rest
  | [] => none

/-- Drops blanks and comments; nothing when a comment has no end. -/
def skipBlanks : Nat → List Char → Option (List Char)
  | 0, s => some s
  | fuel + 1, s =>
    match s with
    | '/' :: '/' :: rest => skipBlanks fuel (skipLine rest)
    | '/' :: '*' :: rest => (skipComment? rest).bind (skipBlanks fuel)
    | c :: rest => if Text.isBlank c then skipBlanks fuel rest else some s
    | [] => some []

/-! ### Literals -/

/-- The character that a letter after a backslash stands for. -/
def escaped (c : Char) : Char :=
  match c with
  | 'n' => '\n'
  | 'r' => '\r'
  | 't' => '\t'
  | '0' => Char.ofNat 0
  | _ => c

/-- The text of a string literal after its opening quote, and what follows the closing one. -/
def takeText (quote : Char) : List Char → List Char → Kind × List Char
  | [], _ => (.invalid .text, [])
  | '\n' :: rest, _ => (.invalid .text, rest)
  | [c], done => if c = quote then (.text (String.ofList done.reverse), []) else (.invalid .text, [])
  | c :: e :: rest, done =>
    if c = quote then (.text (String.ofList done.reverse), e :: rest)
    else if c = '\\' then
      if e = '\n' then takeText quote rest done else takeText quote rest (escaped e :: done)
    else takeText quote (e :: rest) (c :: done)

/-- A piece of a template: what follows it, and whether a substitution opens. -/
def takeTemplate : List Char → Option (Bool × List Char)
  | [] => none
  | '\x60' :: rest => some (false, rest)
  | '$' :: '\x7b' :: rest => some (true, rest)
  | '\\' :: _ :: rest => takeTemplate rest
  | _ :: rest => takeTemplate rest

/-- A regular expression after its opening slash: what follows, or what follows the line it breaks at. -/
def takeRegex : Bool → List Char → Except (List Char) (List Char)
  | _, [] => .error []
  | _, '\n' :: rest => .error rest
  | inClass, '\\' :: _ :: rest => takeRegex inClass rest
  | inClass, c :: rest =>
    if c = '[' then takeRegex true rest
    else if c = ']' then takeRegex false rest
    else if c = '/' && !inClass then .ok (rest.dropWhile Text.isIdContinue)
    else takeRegex inClass rest

/-- What follows a number; `signs` tells whether its exponent may have a sign. -/
def dropNumber (signs : Bool) : Char → List Char → List Char
  | _, [] => []
  | previous, c :: rest =>
    let exponentSign := (c == '+' || c == '-') && (previous == 'e' || previous == 'E') && signs
    if c.isAlphanum || c == '_' || c == '.' || exponentSign then dropNumber signs c rest
    else c :: rest

/-! ### Tokens -/

/-- A kind, what follows the token, and the braces that are open after it. -/
abbrev Scanned := Kind × List Char × List Bool

/-- A piece of a template as a token. -/
def templateToken (braces : List Bool) (s : List Char) : Scanned :=
  match takeTemplate s with
  | some (true, rest) => (.template, rest, true :: braces)
  | some (false, rest) => (.template, rest, braces)
  | none => (.invalid .template, [], braces)

/-- The next character is a digit. -/
def digitNext (s : List Char) : Bool := s.head?.any Char.isDigit

/-- The token that begins with `c`. -/
def scanToken (signs : Bool) (braces : List Bool) (afterExpression : Bool) (c : Char)
    (rest : List Char) : Scanned :=
  match c with
  | '(' => (.parenOpen, rest, braces)
  | ')' => (.parenClose, rest, braces)
  | '[' => (.bracketOpen, rest, braces)
  | ']' => (.bracketClose, rest, braces)
  | '\x7b' => (.braceOpen, rest, false :: braces)
  | '\x7d' =>
    if braces.head? = some true then templateToken braces.tail rest
    else (.braceClose, rest, braces.tail)
  | ',' => (.comma, rest, braces)
  | '.' => if digitNext rest then (.number, dropNumber signs c rest, braces) else (.dot, rest, braces)
  | '?' =>
    if rest.head? = some '.' && !digitNext rest.tail then (.optionalDot, rest.tail, braces)
    else (.operator c, rest, braces)
  | '\x22' => let (kind, after) := takeText c rest []; (kind, after, braces)
  | '\x27' => let (kind, after) := takeText c rest []; (kind, after, braces)
  | '\x60' => templateToken braces rest
  | _ =>
    if c = '/' && !afterExpression then
      match takeRegex false rest with
      | .ok after => (.regex, after, braces)
      | .error after => (.invalid .regex, after, braces)
    else if c.isDigit then (.number, dropNumber signs c rest, braces)
    else if Text.isIdStart c then
      (.identifier (String.ofList (c :: rest.takeWhile Text.isIdContinue)),
        rest.dropWhile Text.isIdContinue, braces)
    else (.operator c, rest, braces)

/-- The next token and the cursor after it; nothing at the end of the source. -/
def Cursor.next (signs : Bool) (cur : Cursor) : Option (Token × Cursor) :=
  let stop := cur.pos + Text.byteLength cur.rest
  let start := if cur.pos = 0 && (Text.after? ['#', '!'] cur.rest).isSome then skipLine cur.rest
    else cur.rest
  match skipBlanks (start.length + 1) start with
  | none => some (⟨.invalid .comment, ⟨stop, stop⟩⟩, ⟨[], stop, cur.braces, cur.afterExpression⟩)
  | some [] => none
  | some (c :: rest) =>
    let (kind, after, braces) := scanToken signs cur.braces cur.afterExpression c rest
    let span : Span := ⟨stop - Text.byteLength (c :: rest), stop - Text.byteLength after⟩
    some (⟨kind, span⟩, ⟨after, span.stop, braces, kind.endsExpression⟩)

/-- The tokens from a cursor on; at most `fuel`. -/
def Cursor.tokens (signs : Bool) : Nat → Cursor → List Token
  | 0, _ => []
  | fuel + 1, cur =>
    match cur.next signs with
    | none => []
    | some (token, cur') => token :: Cursor.tokens signs fuel cur'

/-- The cursor before the first token. -/
def Cursor.start (source : List Char) : Cursor := ⟨source, 0, [], false⟩

/-- The tokens of a source. -/
def scan (source : List Char) : List Token :=
  (Cursor.start source).tokens (Text.after? ['0', 'x'] source).isNone (source.length + 1)

end ScriptVault.Script
