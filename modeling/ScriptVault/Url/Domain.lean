import ScriptVault.Text.CaseFold
import ScriptVault.Text.Percent
import ScriptVault.Url.Address

/-!
# Domain — host names of a URL

A host name is written in ASCII and lower case.  A label with other characters is written in Punycode
after `xn--`; a label that starts so must be Punycode.
-/

namespace ScriptVault.Url

/-! ### Punycode -/

/-- The digit of base thirty-six. -/
def punyDigit (n : Nat) : Char := if n < 26 then Char.ofNat (97 + n) else Char.ofNat (22 + n)

/-- The value of a digit of base thirty-six. -/
def punyValue? (c : Char) : Option Nat :=
  if c.isLower then some (c.toNat - 97)
  else if c.isUpper then some (c.toNat - 65)
  else if c.isDigit then some (c.toNat - 22)
  else none

/-- Halves a difference by thirty-fives until it is small; at most `fuel` times. -/
def adaptLoop : Nat → Nat → Nat → Nat × Nat
  | 0, delta, k => (delta, k)
  | fuel + 1, delta, k => if 455 < delta then adaptLoop fuel (delta / 35) (k + 36) else (delta, k)

/-- The bias for the next difference. -/
def adapt (delta points : Nat) (first : Bool) : Nat :=
  let delta := if first then delta / 700 else delta / 2
  let (delta, k) := adaptLoop 64 (delta + delta / points) 0
  k + 36 * delta / (delta + 38)

/-- The threshold of a digit place. -/
def threshold (k bias : Nat) : Nat :=
  if k ≤ bias then 1 else if bias + 26 ≤ k then 26 else k - bias

/-- A number in digits with sinking thresholds. -/
def variableDigits (bias : Nat) : Nat → Nat → Nat → List Char
  | 0, _, _ => []
  | fuel + 1, k, q =>
    let t := threshold k bias
    if q < t then [punyDigit q]
    else punyDigit (t + (q - t) % (36 - t)) :: variableDigits bias fuel (k + 36) ((q - t) / (36 - t))

/-- Where an encoder stands. -/
structure PunyState where
  /-- Code points below this one are written. -/
  n : Nat
  /-- The difference so far. -/
  delta : Nat
  /-- The bias of the next difference. -/
  bias : Nat
  /-- How many code points are written. -/
  handled : Nat
  /-- The digits so far. -/
  out : List Char

/-- Writes the positions of code point `m` among the code points of a label. -/
def encodePoint (basic : Nat) (m : Nat) (points : List Nat) (st : PunyState) : PunyState :=
  let start := { st with delta := st.delta + (m - st.n) * (st.handled + 1), n := m }
  let done := points.foldl (fun (st : PunyState) c =>
    if c < m then { st with delta := st.delta + 1 }
    else if c = m then
      { st with
        out := st.out ++ variableDigits st.bias 64 36 st.delta
        bias := adapt st.delta (st.handled + 1) (st.handled == basic)
        delta := 0
        handled := st.handled + 1 }
    else st) start
  { done with delta := done.delta + 1, n := done.n + 1 }

/-- The Punycode of a label. -/
def punyEncode (label : List Char) : List Char :=
  let points := label.map Char.toNat
  let basic := label.filter (·.toNat < 128)
  let others := ((points.filter (128 ≤ ·)).mergeSort (· ≤ ·)).eraseDups
  let start : PunyState :=
    ⟨128, 0, 72, basic.length, basic ++ (if basic.isEmpty then [] else ['-'])⟩
  (others.foldl (fun st m => encodePoint basic.length m points st) start).out

/-- Reads one difference; gives it with what follows. -/
def takeDifference (bias : Nat) : Nat → Nat → Nat → Nat → List Char → Option (Nat × List Char)
  | 0, _, _, _, _ => none
  | _ + 1, _, _, _, [] => none
  | fuel + 1, k, w, i, c :: rest => do
    let digit ← punyValue? c
    let i := i + digit * w
    let t := threshold k bias
    if digit < t then some (i, rest) else takeDifference bias fuel (k + 36) (w * (36 - t)) i rest

/-- Inserts the code points that the differences spell. -/
def insertPoints : Nat → Nat → Nat → Nat → List Char → List Nat → Option (List Nat)
  | 0, _, _, _, _, _ => none
  | _ + 1, _, _, _, [], done => some done
  | fuel + 1, n, i, bias, c :: rest, done => do
    let (i', rest') ← takeDifference bias 64 36 1 i (c :: rest)
    let size := done.length + 1
    let n := n + i' / size
    let at' := i' % size
    if 0x10FFFF < n || (0xD800 ≤ n && n < 0xE000) then none
    else
      insertPoints fuel n (at' + 1) (adapt (i' - i) size (i == 0)) rest'
        (done.take at' ++ n :: done.drop at')

/-- The label that Punycode spells. -/
def punyDecode? (s : List Char) : Option (List Char) :=
  let pieces := Text.pieces (· == '-') s
  let digits := pieces.getLastD []
  let basic := Text.join ['-'] pieces.dropLast
  (insertPoints (s.length + 1) 128 0 72 digits (basic.map Char.toNat)).map (·.map Char.ofNat)

/-! ### Labels -/

/-- Characters that a host name may not hold. -/
def isForbidden (c : Char) : Bool :=
  c.toNat ≤ 32 || c.toNat == 127 ||
    ['%', '#', '/', ':', '<', '>', '?', '@', '[', '\\', ']', '^', '|'].contains c

/-- The characters that stand for a character of a host name. -/
def mapChar (c : Char) : List Char :=
  let n := c.toNat
  if n == 0x3002 || n == 0xFF0E || n == 0xFF61 then ['.']
  else if 0xFF01 ≤ n && n ≤ 0xFF5E then [(Char.ofNat (n - 0xFEE0)).toLower]
  else if n == 0xAD || n == 0x200B || n == 0x2060 || n == 0xFEFF then []
  else if n == 0xDF || n == 0x3C2 then [c]
  else [Text.foldCase c]

/-- The ASCII form of a label. -/
def asciiLabel? (label : List Char) : Option (List Char) :=
  if label.all (·.toNat < 128) then
    match Text.after? ['x', 'n', '-', '-'] label with
    | none => some label
    | some rest =>
      match punyDecode? rest with
      | some decoded =>
        if decoded.all (·.toNat < 128) || decoded.flatMap mapChar != decoded then none else some label
      | none => none
  else some (['x', 'n', '-', '-'] ++ punyEncode label)

/-- The ASCII form of a host name. -/
def asciiDomain? (domain : List Char) : Option (List Char) := do
  let mapped := domain.flatMap mapChar
  let labels ← (Text.pieces (· == '.') mapped).mapM asciiLabel?
  let ascii := Text.join ['.'] labels
  if ascii.isEmpty || ascii.any isForbidden then none else some ascii

/-- The canonical text of a host. -/
def host? (s : List Char) : Option String :=
  match s with
  | '[' :: rest => do
    let inner ← Text.before? [']'] rest
    let units ← ipv6Units? inner
    return "[" ++ ipv6Text units ++ "]"
  | _ => do
    let decoded ← Text.Percent.decode? s
    let domain ← asciiDomain? decoded
    if endsInNumber domain then ipv4? domain else some (String.ofList domain)

end ScriptVault.Url
