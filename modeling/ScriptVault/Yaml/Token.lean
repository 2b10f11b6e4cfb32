import ScriptVault.Json.Read

/-!
# Token — the tokens of a structured text

Structure comes from indentation as well as from brackets, so the scanner keeps the columns of the
open blocks.  A text that may turn out to be a key is remembered until its colon is seen; the key token is
then put before it.
-/

namespace ScriptVault.Yaml

/-- What a token is. -/
inductive Token where
  | documentStart
  | documentEnd
  | blockSequence
  | blockMapping
  | blockEnd
  | flowSequence
  | flowSequenceEnd
  | flowMapping
  | flowMappingEnd
  | blockEntry
  | flowEntry
  | key
  | value
  | reference (name : String)
  | anchor (name : String)
  | tag (name : String)
  /-- A scalar; without quotes its type is told by its text. -/
  | scalar (text : String) (bare : Bool)
  deriving DecidableEq, Repr

/-- A place at which a key may have begun. -/
structure PossibleKey where
  /-- The block it stands in needs a key here. -/
  required : Bool
  /-- How many tokens were read before it. -/
  token : Nat
  /-- The line it stands on. -/
  line : Nat
  /-- The characters before it. -/
  pos : Nat
  /-- The column it starts at. -/
  column : Nat

/-- What the scanner knows between two tokens. -/
structure Scan where
  /-- The characters that are not yet read. -/
  rest : List Char
  /-- The characters that are read. -/
  pos : Nat := 0
  /-- The lines that are read. -/
  line : Nat := 0
  /-- The column of the next character. -/
  column : Nat := 0
  /-- The column of the innermost block, counted from one; none is zero. -/
  indent : Nat := 0
  /-- The columns of the blocks around it. -/
  outer : List Nat := []
  /-- A key may begin here. -/
  keyAllowed : Bool := true
  /-- The key that may have begun, for each open bracket and for the block; the innermost first. -/
  keys : List (Option PossibleKey) := [none]
  /-- The tokens so far. -/
  tokens : Array Token := #[]

/-! ### Characters -/

/-- A character that ends a line. -/
def isBreak (c : Char) : Bool :=
  c == '\n' || c == '\r' || c.toNat == 0x85 || c.toNat == 0x2028 || c.toNat == 0x2029

/-- White space inside a line. -/
def isSpace (c : Char) : Bool := c == ' ' || c == '\t'

/-- The text is at its end, at white space or at a line end. -/
def atBlank : List Char → Bool
  | [] => true
  | c :: _ => isSpace c || isBreak c

/-- A character that a text may hold at all. -/
def isAllowed (c : Char) : Bool :=
  let n := c.toNat
  n == 9 || n == 10 || n == 13 || (32 ≤ n && n ≤ 126) || n == 0x85 ||
    (0xA0 ≤ n && n ≤ 0xFFFD && n != 0xFEFF) || 0x10000 ≤ n

/-- The line break that a text begins with, as it counts in a scalar, and its length. -/
def break? : List Char → Option (Char × Nat)
  | '\r' :: '\n' :: _ => some ('\n', 2)
  | c :: _ =>
    if c == '\n' || c == '\r' || c.toNat == 0x85 then some ('\n', 1)
    else if isBreak c then some (c, 1)
    else none
  | [] => none

namespace Scan

/-- The text goes on inside brackets. -/
def inFlow (s : Scan) : Bool := 1 < s.keys.length

/-- Skips characters within a line. -/
def skip (s : Scan) (n : Nat) : Scan :=
  { s with rest := s.rest.drop n, pos := s.pos + n, column := s.column + n }

/-- Skips a line break of the given length. -/
def skipBreak (s : Scan) (n : Nat) : Scan :=
  { s with rest := s.rest.drop n, pos := s.pos + n, line := s.line + 1, column := 0 }

/-- Adds a token. -/
def push (s : Scan) (token : Token) : Scan := { s with tokens := s.tokens.push token }

/-- The text stands at a line of dashes or dots that bounds a document. -/
def atBoundary (s : Scan) : Bool :=
  s.column == 0 &&
    match s.rest with
    | '-' :: '-' :: '-' :: rest => atBlank rest
    | '.' :: '.' :: '.' :: rest => atBlank rest
    | _ => false

/-! ### Blocks and keys -/

/-- Closes the blocks that begin right of a column, counted from one. -/
def closeBlocks (s : Scan) (column : Nat) : Scan :=
  if s.inFlow then s else go s.outer s
where
  /-- Closes the innermost block and goes on with those around it. -/
  go : List Nat → Scan → Scan
    | [], s => s
    | indent :: outer, s =>
      if column < s.indent then go outer { s.push .blockEnd with indent := indent, outer := outer }
      else s

/-- Opens a block at a column, counted from one, unless one is open there. -/
def openBlock (s : Scan) (column at_ : Nat) (token : Token) : Scan :=
  if s.inFlow || column ≤ s.indent then s
  else
    { s with
      indent := column
      outer := s.indent :: s.outer
      tokens := (s.tokens.toList.take at_ ++ token :: s.tokens.toList.drop at_).toArray }

/-- Gives up a key that may have begun; one that is required cannot be given up. -/
def dropKey? (s : Scan) : Option Scan :=
  match s.keys with
  | some key :: keys => if key.required then none else some { s with keys := none :: keys }
  | _ => some s

/-- Remembers that a key may begin here. -/
def saveKey? (s : Scan) : Option Scan :=
  if s.keyAllowed then
    (s.dropKey?).map fun s =>
      let key : PossibleKey :=
        { required := !s.inFlow && s.indent == s.column + 1
          token := s.tokens.size, line := s.line, pos := s.pos, column := s.column }
      { s with keys := some key :: s.keys.drop 1 }
  else some s

/-- The longest key, in characters. -/
def keyMax : Nat := 1024

/-- Gives up the keys that cannot be keys any more. -/
def dropStale? (s : Scan) : Option Scan :=
  (s.keys.mapM fun (key : Option PossibleKey) =>
    match key with
    | some k =>
      if k.line < s.line || k.pos + keyMax < s.pos then
        if k.required then none else some none
      else some (some k)
    | none => some none).map fun keys => { s with keys := keys }

/-! ### Between tokens -/

/-- Drops white space, comments and line breaks.  A tab may not stand where a key may begin. -/
def toToken : Nat → Scan → Scan
  | 0, s => s
  | fuel + 1, s =>
    let tabs := s.inFlow || !s.keyAllowed
    let s := s.skip (s.rest.takeWhile fun c => c == ' ' || (tabs && c == '\t')).length
    let s :=
      if s.rest.head? == some '#' then s.skip (s.rest.takeWhile fun c => !isBreak c).length else s
    match break? s.rest with
    | none => s
    | some (_, n) =>
      let s := s.skipBreak n
      toToken fuel (if s.inFlow then s else { s with keyAllowed := true })

/-! ### Scalars on one or more lines -/

/-- White space and line breaks inside a scalar. -/
structure Gap where
  /-- The white space before the first line break. -/
  spaces : List Char := []
  /-- The first line break. -/
  first : Option Char := none
  /-- The line breaks after it. -/
  more : List Char := []

/-- What a gap counts as: a single line break is a blank, and of several the first is dropped. -/
def Gap.text (gap : Gap) : List Char :=
  match gap.first with
  | none => gap.spaces
  | some '\n' => if gap.more.isEmpty then [' '] else gap.more
  | some c => c :: gap.more

/-- Reads a gap; with `margin`, a tab left of it in the indentation is refused. -/
def takeGap (margin : Option Nat) : Nat → Scan → Gap → Option (Gap × Scan)
  | 0, s, gap => some (gap, s)
  | fuel + 1, s, gap =>
    match s.rest with
    | [] => some (gap, s)
    | c :: _ =>
      if isSpace c then
        if gap.first.isNone then takeGap margin fuel (s.skip 1) { gap with spaces := gap.spaces ++ [c] }
        else if c == '\t' && margin.any (s.column < ·) then none
        else takeGap margin fuel (s.skip 1) gap
      else
        match break? s.rest with
        | none => some (gap, s)
        | some (b, n) =>
          let gap :=
            if gap.first.isNone then { gap with first := some b } else { gap with more := gap.more ++ [b] }
          takeGap margin fuel (s.skipBreak n) gap

/-- A mark of the brackets. -/
def isFlowMark (c : Char) : Bool :=
  c == ',' || c == '[' || c == ']' || c == '\x7b' || c == '\x7d'

/-- The part of a scalar without quotes up to the next gap; no result for a colon out of place. -/
def takeWord (flow : Bool) : List Char → Option (List Char)
  | [] => some []
  | c :: rest =>
    if isSpace c || isBreak c then some []
    else if flow && c == ':' && rest.head?.any (fun d => isFlowMark d || d == '?') then none
    else if (c == ':' && atBlank rest) || (flow && isFlowMark c) then some []
    else (takeWord flow rest).map (c :: ·)

/-- A scalar without quotes. -/
def takeBare : Nat → Scan → List Char → List Char → Option (List Char × Scan)
  | 0, _, _, _ => none
  | fuel + 1, s, done, gapText =>
    if s.atBoundary || s.rest.head? == some '#' then some (done, s)
    else do
      let word ← takeWord s.inFlow s.rest
      let done := if word.isEmpty then done else done ++ gapText ++ word
      let s := if word.isEmpty then s else { s.skip word.length with keyAllowed := false }
      if !s.rest.head?.any (fun c => isSpace c || isBreak c) then return (done, s)
      let (gap, s) ← takeGap (some s.indent) (s.rest.length + 1) s {}
      let s := if gap.first.isSome then { s with keyAllowed := true } else s
      if !s.inFlow && s.column < s.indent then return (done, s)
      takeBare fuel s done gap.text

/-- The character that a letter after a backslash stands for. -/
def escaped? (c : Char) : Option Char :=
  match c with
  | '0' => some (Char.ofNat 0)
  | 'a' => some (Char.ofNat 7)
  | 'b' => some (Char.ofNat 8)
  | 't' => some '\t'
  | '\t' => some '\t'
  | 'n' => some '\n'
  | 'v' => some (Char.ofNat 11)
  | 'f' => some (Char.ofNat 12)
  | 'r' => some '\r'
  | 'e' => some (Char.ofNat 27)
  | ' ' => some ' '
  | '\x22' => some '\x22'
  | '/' => some '/'
  | '\\' => some '\\'
  | 'N' => some (Char.ofNat 0x85)
  | '_' => some (Char.ofNat 0xA0)
  | 'L' => some (Char.ofNat 0x2028)
  | 'P' => some (Char.ofNat 0x2029)
  | _ => none

/-- The number of digits after the letter of a numeric escape. -/
def escapeWidth? (c : Char) : Option Nat :=
  match c with
  | 'x' => some 2
  | 'u' => some 4
  | 'U' => some 8
  | _ => none

/-- The character of an escape after its backslash, and its length. -/
def takeEscape? : List Char → Option (Char × Nat)
  | [] => none
  | c :: rest =>
    match escapeWidth? c with
    | some width =>
      if rest.length < width then none
      else
        (Json.hexNumber? (rest.take width)).bind fun n =>
          if n.isValidChar then some (Char.ofNat n, width + 1) else none
    | none => (escaped? c).map fun e => (e, 1)

/-- A scalar between quotes; `folded` tells that a line break was just taken out by a backslash. -/
def takeQuoted (double : Bool) : Nat → Scan → List Char → Option (List Char × Scan)
  | 0, _, _ => none
  | fuel + 1, s, done =>
    if s.atBoundary then none
    else
      match s.rest with
      | [] => none
      | c :: rest =>
        if isSpace c || isBreak c then
          (takeGap none (s.rest.length + 1) s {}).bind fun (gap, s) =>
            takeQuoted double fuel s (done ++ gap.text)
        else if !double && c == '\x27' then
          if rest.head? == some '\x27' then takeQuoted double fuel (s.skip 2) (done ++ ['\x27'])
          else some (done, s.skip 1)
        else if double && c == '\x22' then some (done, s.skip 1)
        else if double && c == '\\' then
          match break? rest with
          | some (_, n) =>
            (takeGap none (s.rest.length + 1) ((s.skip 1).skipBreak n) { first := some '\n' }).bind
              fun (gap, s) => takeQuoted double fuel s (done ++ gap.more)
          | none =>
            (takeEscape? rest).bind fun (e, n) =>
              takeQuoted double fuel (s.skip (n + 1)) (done ++ [e])
        else takeQuoted double fuel (s.skip 1) (done ++ [c])

/-! ### Scalars in a block -/

/-- Which line breaks at the end of a block scalar are kept. -/
inductive Chomp where
  | strip
  | clip
  | keep
  deriving DecidableEq

/-- Reads the marks after the letter of a block scalar: which line breaks are kept, and the depth of the
indentation. -/
def takeMarks (s : Scan) : Option ((Chomp × Option Nat) × Scan) :=
  let chomp? (c : Char) : Option Chomp :=
    if c == '+' then some .keep else if c == '-' then some .strip else none
  match s.rest with
  | a :: b :: _ =>
    match chomp? a with
    | some chomp =>
      if b.isDigit then
        if b == '0' then none else some ((chomp, some (b.toNat - 48)), s.skip 2)
      else some ((chomp, none), s.skip 1)
    | none =>
      if a.isDigit then
        if a == '0' then none
        else
          match chomp? b with
          | some chomp => some ((chomp, some (a.toNat - 48)), s.skip 2)
          | none => some ((.clip, some (a.toNat - 48)), s.skip 1)
      else some ((.clip, none), s)
  | [a] =>
    match chomp? a with
    | some chomp => some ((chomp, none), s.skip 1)
    | none =>
      if a.isDigit then if a == '0' then none else some ((.clip, some (a.toNat - 48)), s.skip 1)
      else some ((.clip, none), s)
  | [] => some ((.clip, none), s)

/-- Reads the empty lines of a block scalar and finds its indentation where it is not given. -/
def takeEmptyLines (indent : Option Nat) : Nat → Scan → Nat → List Char →
    Option (Nat × List Char × Scan)
  | 0, _, _, _ => none
  | fuel + 1, s, deepest, breaks =>
    let spaces := (s.rest.takeWhile (· == ' ')).length
    let s := s.skip (match indent with
      | none => spaces
      | some i => min spaces (i - s.column))
    let deepest := max deepest s.column
    if s.rest.head? == some '\t' && (indent.isNone || indent.any (s.column < ·)) then none
    else
      match break? s.rest with
      | some (b, n) => takeEmptyLines indent fuel (s.skipBreak n) deepest (breaks ++ [b])
      | none => some (indent.getD (max (max deepest s.indent) 1), breaks, s)

/-- The lines of a block scalar, once its indentation is known. -/
def takeBlockLines (literal : Bool) (indent : Nat) :
    Nat → Scan → List Char → Option Char → List Char → Bool →
    Option (List Char × Option Char × List Char × Scan)
  | 0, _, _, _, _, _ => none
  | fuel + 1, s, done, leading, trailing, blank =>
    if s.column != indent || s.rest.isEmpty then some (done, leading, trailing, s)
    else
      let blankNow := s.rest.head?.any isSpace
      let done :=
        if !literal && leading == some '\n' && !blank && !blankNow then
          if trailing.isEmpty then done ++ [' '] else done
        else done ++ leading.toList
      let line := s.rest.takeWhile fun c => !isBreak c
      let done := done ++ trailing ++ line
      let s := s.skip line.length
      let (leading, s) := match break? s.rest with
        | some (b, n) => (some b, s.skipBreak n)
        | none => (none, s)
      (takeEmptyLines (some indent) (s.rest.length + 1) s 0 []).bind fun (_, trailing, s) =>
        takeBlockLines literal indent fuel s done leading trailing blankNow

/-- A block scalar after its letter. -/
def takeBlock (literal : Bool) (s : Scan) : Option (List Char × Scan) := do
  let ((chomp, depth), s) ← s.takeMarks
  let s := s.skip (s.rest.takeWhile isSpace).length
  let s := if s.rest.head? == some '#' then s.skip (s.rest.takeWhile fun c => !isBreak c).length else s
  let s ← match s.rest, break? s.rest with
    | [], _ => some s
    | _, some (_, n) => some (s.skipBreak n)
    | _, none => none
  let given := depth.map fun d => if s.indent = 0 then d else s.indent - 1 + d
  let (indent, trailing, s) ← takeEmptyLines given (s.rest.length + 1) s 0 []
  let (done, leading, trailing, s) ←
    takeBlockLines literal indent (s.rest.length + 1) s [] none trailing false
  let done := if chomp = .strip then done else done ++ leading.toList
  return (if chomp = .keep then done ++ trailing else done, s)

/-! ### One token -/

/-- A character of an anchor's name. -/
def isNameChar (c : Char) : Bool := c.isAlphanum || c == '_' || c == '-'

/-- The name after the mark of an anchor or an alias. -/
def takeName (s : Scan) : Option (String × Scan) :=
  let name := s.rest.takeWhile isNameChar
  let s := s.skip name.length
  let ends := atBlank s.rest || s.rest.head?.any fun c =>
    ['?', ':', ',', ']', '\x7d', '%', '@', '\x60'].contains c
  if name.isEmpty || !ends then none else some (String.ofList name, s)

/-- The tag at this place. -/
def takeTag (s : Scan) : Option (String × Scan) :=
  let name := s.rest.takeWhile fun c => !isSpace c && !isBreak c && !(s.inFlow && c == ',')
  some (String.ofList name, s.skip name.length)

/-- The tokens that close all blocks and bound a document. -/
def boundary? (s : Scan) (token : Token) : Option Scan :=
  ((s.closeBlocks 0).dropKey?).map fun s => ({ s with keyAllowed := false }.skip 3).push token

/-- An opening bracket. -/
def open? (s : Scan) (token : Token) : Option Scan :=
  (s.saveKey?).map fun s =>
    { (s.push token).skip 1 with keyAllowed := true, keys := none :: s.keys }

/-- A closing bracket. -/
def close? (s : Scan) (token : Token) : Option Scan :=
  (s.dropKey?).map fun s =>
    let keys := if s.inFlow then s.keys.drop 1 else s.keys
    { (s.push token).skip 1 with keyAllowed := false, keys := keys }

/-- A comma between brackets. -/
def comma? (s : Scan) : Option Scan :=
  (s.dropKey?).map fun s => { (s.push .flowEntry).skip 1 with keyAllowed := true }

/-- The dash of an entry. -/
def entry? (s : Scan) : Option Scan :=
  if !s.inFlow && !s.keyAllowed then none
  else
    ((s.openBlock (s.column + 1) s.tokens.size .blockSequence).dropKey?).map fun s =>
      { (s.push .blockEntry).skip 1 with keyAllowed := true }

/-- The question mark of a key. -/
def key? (s : Scan) : Option Scan :=
  if !s.inFlow && !s.keyAllowed then none
  else
    ((s.openBlock (s.column + 1) s.tokens.size .blockMapping).dropKey?).map fun s =>
      { (s.push .key).skip 1 with keyAllowed := !s.inFlow }

/-- The colon of a value. -/
def value? (s : Scan) : Option Scan :=
  match s.keys with
  | some key :: keys =>
    let tokens := s.tokens.toList
    let s :=
      { s with
        keys := none :: keys
        tokens := (tokens.take key.token ++ Token.key :: tokens.drop key.token).toArray }
    let s := s.openBlock (key.column + 1) key.token .blockMapping
    some { (s.push .value).skip 1 with keyAllowed := false }
  | _ =>
    if !s.inFlow && !s.keyAllowed then none
    else
      let s := s.openBlock (s.column + 1) s.tokens.size .blockMapping
      some { (s.push .value).skip 1 with keyAllowed := !s.inFlow }

/-- Reads a token that may be a key with one of the readers above. -/
def word? (s : Scan) (take : Scan → Option (Token × Scan)) : Option Scan := do
  let s ← s.saveKey?
  let (token, s) ← take { s with keyAllowed := false }
  return s.push token

/-- A block scalar; a key may follow it. -/
def block? (s : Scan) (literal : Bool) : Option Scan := do
  let s ← s.dropKey?
  let (text, s) ← takeBlock literal ({ s with keyAllowed := true }.skip 1)
  return s.push (.scalar (String.ofList text) false)

/-- Marks that no scalar without quotes begins with. -/
def isMark (c : Char) : Bool :=
  isFlowMark c || ['#', '&', '*', '!', '|', '>', '\x27', '\x22', '%', '@', '\x60'].contains c

/-- A scalar without quotes may begin with the character. -/
def beginsBare (flow : Bool) (c : Char) (rest : List Char) : Bool :=
  if isSpace c || isMark c then false
  else if c == '-' then !rest.head?.any isSpace
  else if c == '?' || c == ':' then !flow && !atBlank rest
  else true

/-- The next token; at the end of the text all blocks are closed. -/
def next? (s : Scan) : Option Scan := do
  let s ← (s.toToken (s.rest.length + 1)).dropStale?
  let s := s.closeBlocks (s.column + 1)
  match s.rest with
  | [] => (s.closeBlocks 0).dropKey?
  | c :: rest =>
    let flow := s.inFlow
    if s.column = 0 && c == '%' then none
    else if s.atBoundary then boundary? s (if c == '-' then .documentStart else .documentEnd)
    else if c == '[' then open? s .flowSequence
    else if c == '\x7b' then open? s .flowMapping
    else if c == ']' then close? s .flowSequenceEnd
    else if c == '\x7d' then close? s .flowMappingEnd
    else if c == ',' then comma? s
    else if c == '-' && atBlank rest then entry? s
    else if c == '?' && (flow || atBlank rest) then key? s
    else if c == ':' && (flow || atBlank rest) then value? s
    else if c == '*' then word? s fun s => (s.skip 1).takeName.map fun (n, s) => (.reference n, s)
    else if c == '&' then word? s fun s => (s.skip 1).takeName.map fun (n, s) => (.anchor n, s)
    else if c == '!' then word? s fun s => s.takeTag.map fun (n, s) => (.tag n, s)
    else if c == '|' && !flow then block? s true
    else if c == '>' && !flow then block? s false
    else if c == '\x27' || c == '\x22' then
      word? s fun s =>
        (takeQuoted (c == '\x22') (s.rest.length + 1) (s.skip 1) []).map fun (t, s) =>
          (.scalar (String.ofList t) false, s)
    else if beginsBare flow c rest then
      word? s fun s =>
        (takeBare (s.rest.length + 1) s [] []).map fun (t, s) => (.scalar (String.ofList t) true, s)
    else none

/-- All tokens from here on. -/
def all? : Nat → Scan → Option (List Token)
  | 0, _ => none
  | fuel + 1, s =>
    (s.next?).bind fun next => if next.rest.isEmpty && s.rest.isEmpty then some next.tokens.toList
      else all? fuel next

end Scan

/-- The tokens of a text. -/
def tokens? (text : List Char) : Option (List Token) :=
  let s := match text with
    | c :: rest => if c.toNat = 0xFEFF then rest else text
    | [] => []
  if s.all isAllowed then Scan.all? (s.length + 3) { rest := s } else none

end ScriptVault.Yaml
