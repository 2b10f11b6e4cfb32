import ScriptVault.Text.Percent
import ScriptVault.Url.Domain

/-!
# Url — web addresses

`Web.read?` reads an absolute `http` or `https` address, `Web.join?` one that is relative to another, and
`Web.text` writes an address in its canonical form: parts are escaped, dots in the path resolved,
default ports left out.
-/

namespace ScriptVault.Url

/-- An `http` or `https` address with all its parts in canonical form. -/
structure Web where
  /-- Whether the scheme is `https`. -/
  secure : Bool
  /-- User name and password with the `@` after them, or nothing. -/
  user : String
  /-- The host. -/
  host : String
  /-- The port, unless it is the scheme's own. -/
  port : Option Nat
  /-- The segments of the path, of which there is at least one. -/
  path : List String
  /-- What follows the question mark. -/
  query : Option String
  /-- What follows the number sign. -/
  fragment : Option String
  deriving DecidableEq, Repr

namespace Web

/-- The text of an address. -/
def text (u : Web) : String :=
  (if u.secure then "https://" else "http://") ++ u.user ++ u.host ++
    (match u.port with | some p => ":" ++ toString p | none => "") ++
    String.join (u.path.map ("/" ++ ·)) ++
    (match u.query with | some q => "?" ++ q | none => "") ++
    (match u.fragment with | some f => "#" ++ f | none => "")

/-! ### Characters -/

/-- Control characters. -/
def isControl (c : Char) : Bool := c.toNat < 32 || c.toNat == 127

/-- Escaped in a fragment. -/
def inFragment (c : Char) : Bool := isControl c || [' ', '\x22', '<', '>', '\x60'].contains c

/-- Escaped in a path. -/
def inPath (c : Char) : Bool := inFragment c || ['#', '?', '\x7b', '\x7d'].contains c

/-- Escaped in a query. -/
def inQuery (c : Char) : Bool := isControl c || [' ', '\x22', '#', '<', '>', '\x27'].contains c

/-- Escaped in a user name or password. -/
def inUser (c : Char) : Bool :=
  inPath c || ['/', ':', ';', '=', '@', '[', '\\', ']', '^', '|'].contains c

/-- Both slashes separate. -/
def isSlash (c : Char) : Bool := c == '/' || c == '\\'

/-- Ends the authority of an address. -/
def endsAuthority (c : Char) : Bool := isSlash c || c == '?' || c == '#'

/-- A text without control characters and spaces at its ends, and without tabs and line breaks. -/
def clean (s : List Char) : List Char :=
  let edge (c : Char) : Bool := c.toNat ≤ 32
  ((s.dropWhile edge).reverse.dropWhile edge).reverse.filter
    fun c => c != '\t' && c != '\n' && c != '\r'

/-- Escaped text. -/
def escaped (set : Char → Bool) (s : List Char) : String :=
  String.ofList (Text.Percent.encode set s)

/-! ### Parts -/

/-- Splits a scheme from the rest of an address. -/
def takeScheme? (s : List Char) : Option (String × List Char) :=
  match s with
  | c :: _ =>
    if !c.isAlpha then none
    else
      let inScheme (c : Char) : Bool := c.isAlphanum || c == '+' || c == '-' || c == '.'
      match s.dropWhile inScheme with
      | ':' :: rest => some (String.ofList ((s.takeWhile inScheme).map Char.toLower), rest)
      | _ => none
  | [] => none

/-- The text before the last `@` of an authority, if it has one, and what follows. -/
def takeUser (authority : List Char) : Option (List Char) × List Char :=
  match (Text.pieces (· == '@') authority).reverse with
  | last :: piece :: pieces => (some (Text.join ['@'] (piece :: pieces).reverse), last)
  | _ => (none, authority)

/-- The canonical text of user name and password. -/
def userText (s : List Char) : String :=
  let name := s.takeWhile (· != ':')
  let password := (s.dropWhile (· != ':')).drop 1
  if name.isEmpty && password.isEmpty then ""
  else
    escaped inUser name ++ (if password.isEmpty then "" else ":" ++ escaped inUser password) ++ "@"

/-- Splits a host from the port after it; a colon in brackets belongs to the host. -/
def takeHost : Bool → List Char → List Char × List Char
  | _, [] => ([], [])
  | bracketed, c :: s =>
    if c == ':' && !bracketed then ([], c :: s)
    else
      let (h, r) := takeHost (if c == '[' then true else if c == ']' then false else bracketed) s
      (c :: h, r)

/-- The port after a host; none when it is missing or the scheme's own. -/
def port? (secure : Bool) : List Char → Option (Option Nat)
  | ':' :: digits =>
    if digits.isEmpty then some none
    else if !digits.all Char.isDigit then none
    else
      let n := Decimal.digitsValue digits
      if 65535 < n then none
      else some (if n = (if secure then 443 else 80) then none else some n)
  | _ => some none

/-- A segment that stands for the parent. -/
def isParent (segment : List Char) : Bool :=
  [".".toList, "%2e".toList].any fun a => [".".toList, "%2e".toList].any fun b =>
    segment.map Char.toLower == a ++ b

/-- A segment that stands for the directory itself. -/
def isSelf (segment : List Char) : Bool :=
  segment.map Char.toLower == ".".toList || segment.map Char.toLower == "%2e".toList

/-- A letter with a colon or bar, which a step to the parent does not leave. -/
def isDrive : List Char → Bool
  | [c, d] => c.isAlpha && (d == ':' || d == '|')
  | _ => false

/-- Path segments taken one after another; the way so far is kept innermost first. -/
def walk (way : List (List Char)) : List (List Char) → List (List Char)
  | [] => ([] :: way).reverse
  | [last] =>
    if isParent last then ([] :: up way).reverse
    else if isSelf last then ([] :: way).reverse
    else (last :: way).reverse
  | segment :: rest =>
    if isParent segment then walk (up way) rest
    else if isSelf segment then walk way rest
    else walk (segment :: way) rest
where
  /-- The way to the parent. -/
  up : List (List Char) → List (List Char)
    | [] => []
    | segment :: way => if isDrive segment then segment :: way else way

/-- The path that a text spells from some segments on. -/
def pathFrom (way : List String) (s : List Char) : List String :=
  let pieces := (Text.pieces isSlash s).map (Text.Percent.encode inPath)
  (walk (way.reverse.map String.toList) pieces).map String.ofList

/-- Path, query and fragment of an address whose other parts are known. -/
def withTail (u : Web) (way : List String) (s : List Char) : Web :=
  let isEnd (c : Char) : Bool := c == '?' || c == '#'
  let path := s.takeWhile (!isEnd ·)
  withQuery { u with path := pathFrom way path } (s.dropWhile (!isEnd ·))
where
  /-- Query and fragment, each after its mark. -/
  withQuery (u : Web) (s : List Char) : Web :=
    match s with
    | '?' :: rest =>
      let query := rest.takeWhile (· != '#')
      withFragment { u with query := some (escaped inQuery query) } (rest.dropWhile (· != '#'))
    | rest => withFragment { u with query := none } rest
  /-- The fragment after its mark. -/
  withFragment (u : Web) (s : List Char) : Web :=
    match s with
    | '#' :: rest => { u with fragment := some (escaped inFragment rest) }
    | _ => { u with fragment := none }

/-- An address from what follows the two slashes after its scheme. -/
def afterSlashes? (secure : Bool) (s : List Char) : Option Web := do
  let authority := s.takeWhile (!endsAuthority ·)
  let rest := s.dropWhile (!endsAuthority ·)
  let (user, hostPort) := takeUser authority
  let (hostText, portText) := takeHost false hostPort
  if hostText.isEmpty then none
  else
    let host ← host? hostText
    let port ← port? secure portText
    let u : Web := ⟨secure, (user.map userText).getD "", host, port, [], none, none⟩
    let rest := match rest with
      | c :: r => if isSlash c then r else rest
      | [] => []
    return withTail u [] rest

/-- The scheme, when it is one of the two. -/
def secure? (scheme : String) : Option Bool :=
  if scheme == "https" then some true else if scheme == "http" then some false else none

/-- The absolute address that a text spells. -/
def read? (text : String) : Option Web := do
  let (scheme, rest) ← takeScheme? (clean text.toList)
  let secure ← secure? scheme
  afterSlashes? secure (rest.dropWhile isSlash)

/-- The address that a text without a scheme spells from `base` on. -/
def relative? (base : Web) (s : List Char) : Option Web :=
  match s with
  | [] => some { base with fragment := none }
  | '?' :: _ => some (withTail.withQuery base s)
  | '#' :: _ => some (withTail.withFragment base s)
  | c :: rest =>
    if isSlash c then
      let slashes := s.takeWhile isSlash
      if 2 ≤ slashes.length then
        match s with
        | '/' :: '/' :: after => afterSlashes? base.secure after
        | _ => afterSlashes? base.secure (s.dropWhile isSlash)
      else some (withTail base [] rest)
    else some (withTail base base.path.dropLast s)

/-- The address that a text spells from `base` on. -/
def join? (base : Web) (text : String) : Option Web :=
  let s := clean text.toList
  match takeScheme? s with
  | none => relative? base s
  | some (scheme, rest) => do
    let secure ← secure? scheme
    if secure = base.secure && (rest.takeWhile isSlash).length < 2 then relative? base rest
    else afterSlashes? secure (rest.dropWhile isSlash)

end Web

/-- The canonical address of a specifier seen from a place, which counts only when it is an address. -/
def normalize? (specifier : String) (place : Option String) : Option String :=
  let address :=
    match place.bind Web.read? with
    | some base => (Web.join? base specifier).orElse fun _ => Web.read? specifier
    | none => Web.read? specifier
  address.map Web.text

end ScriptVault.Url
