import ScriptVault.Json.Read
import ScriptVault.Text.Pieces

/-!
# Address — numeric hosts of a URL

A host whose last label is a number is an IPv4 address of at most four parts, in base ten, eight or
sixteen; a host in brackets is an IPv6 address.  Both are written in one canonical form.
-/

namespace ScriptVault.Url

/-! ### Four bytes -/

/-- The value of digits in a base, when they are digits of it. -/
def inBase? (base : Nat) (digits : List Char) : Option Nat :=
  digits.foldl (fun n c => do
    let d ← Json.hexValue? c
    if d < base then return (← n) * base + d else none) (some 0)

/-- A part of an IPv4 address: a number in base sixteen after `0x`, eight after `0`, else ten. -/
def part? : List Char → Option Nat
  | [] => none
  | '0' :: 'x' :: digits => inBase? 16 digits
  | '0' :: 'X' :: digits => inBase? 16 digits
  | '0' :: d :: digits => inBase? 8 (d :: digits)
  | digits => inBase? 10 digits

/-- The labels of a domain without the empty one after a final dot. -/
def labels (domain : List Char) : List (List Char) :=
  let all := Text.pieces (· == '.') domain
  if all.getLast? == some [] && 1 < all.length then all.dropLast else all

/-- The last label is a number. -/
def endsInNumber (domain : List Char) : Bool :=
  match (labels domain).getLast? with
  | none => false
  | some last => (!last.isEmpty && last.all Char.isDigit) || (part? last).isSome

/-- The text of the IPv4 address that a domain spells. -/
def ipv4? (domain : List Char) : Option String := do
  let parts ← (labels domain).mapM part?
  let last ← parts.getLast?
  let front := parts.dropLast
  if 4 < parts.length || front.any (255 < ·) || Nat.pow 256 (4 - front.length) ≤ last then none
  else
    let value := (front.zipIdx.map fun (n, i) => n * Nat.pow 256 (3 - i)).foldr (· + ·) last
    some (".".intercalate ([3, 2, 1, 0].map fun i => toString (value / Nat.pow 256 i % 256)))

/-! ### Eight units -/

/-- The text of a number in base sixteen, in lower case. -/
def hexText (n : Nat) : String := String.ofList (Nat.toDigits 16 n)

/-- One to four digits of base sixteen as a unit. -/
def unit? (digits : List Char) : Option Nat :=
  if digits.isEmpty || 4 < digits.length then none else inBase? 16 digits

/-- Four decimal bytes without leading zeros as two units. -/
def dotted? (s : List Char) : Option (List Nat) := do
  let parts := Text.pieces (· == '.') s
  if parts.length != 4 then none
  else
    let bytes ← parts.mapM fun p =>
      if p.isEmpty || 3 < p.length || (p.head? == some '0' && 1 < p.length) || !p.all Char.isDigit
      then none else inBase? 10 p
    if bytes.any (255 < ·) then none
    else
      match bytes with
      | [a, b, c, d] => some [a * 256 + b, c * 256 + d]
      | _ => none

/-- Units between colons; the last piece may be four decimal bytes. -/
def units? (s : List Char) : Option (List Nat) :=
  if s.isEmpty then some []
  else
    let pieces := Text.pieces (· == ':') s
    do
      let front ← pieces.dropLast.mapM unit?
      let last := pieces.getLastD []
      let back ← if last.contains '.' then dotted? last else (unit? last).map ([·])
      return front ++ back

/-- The eight units of an IPv6 address; one `::` stands for as many zeros as are missing. -/
def ipv6Units? (s : List Char) : Option (List Nat) :=
  match Text.cut? [':', ':'] s with
  | none => (units? s).bind fun us => if us.length = 8 then some us else none
  | some (left, right) =>
    if (Text.cut? [':', ':'] right).isSome || right.head? == some ':' || left.contains '.' then none
    else do
      let a ← units? left
      let b ← units? right
      if 7 < a.length + b.length then none
      else some (a ++ List.replicate (8 - a.length - b.length) 0 ++ b)

/-- The longest run of zeros, of the first longest: where it starts and how long it is. -/
def zeroRun (units : List Nat) : Nat × Nat :=
  let runs := (List.range units.length).map fun i => (i, ((units.drop i).takeWhile (· == 0)).length)
  runs.foldl (fun best run => if best.2 < run.2 then run else best) (0, 0)

/-- Units with colons between them. -/
def colons (units : List Nat) : String := ":".intercalate (units.map hexText)

/-- The canonical text of an IPv6 address: the longest run of two or more zeros is left out. -/
def ipv6Text (units : List Nat) : String :=
  let (start, length) := zeroRun units
  if length < 2 then colons units
  else colons (units.take start) ++ "::" ++ colons (units.drop (start + length))

end ScriptVault.Url
