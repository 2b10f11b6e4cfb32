/-!
# Read — floating point numbers, and how decimal text is read as one

A finite number is `m · 2 ^ q` with whole `m` and `q`.  `ratio` writes it as a quotient of natural numbers, on which
all decimal work is exact.  The grammar of decimal text is an optional sign, digits around an optional point of which
at least one stands on either side, and an optional exponent; also `inf`, `infinity` and `nan` in any case.
-/

namespace ScriptVault.Decimal

/-! ### The exact value of a number -/

/-- The magnitude `m · 2 ^ q` of a finite number. -/
structure Binary where
  /-- The whole factor. -/
  m : Nat
  /-- The power of two. -/
  q : Int
  deriving DecidableEq, Repr

/-- The number is below zero, or the zero that is. -/
def isNegative (x : Float) : Bool := x.toBits >>> 63 == 1

/-- The magnitude of a finite number. -/
def Binary.ofFloat (x : Float) : Binary :=
  let bits := x.toBits.toNat
  let exponent : Nat := bits / Nat.pow 2 52 % Nat.pow 2 11
  let fraction : Nat := bits % Nat.pow 2 52
  if exponent = 0 then ⟨fraction, -1074⟩ else ⟨Nat.pow 2 52 + fraction, (exponent : Int) - 1075⟩

/-- The magnitude `k · 2 ^ e` as a quotient of natural numbers. -/
def ratio (k : Nat) (e : Int) : Nat × Nat :=
  match e with
  | .ofNat n => (k * Nat.pow 2 n, 1)
  | .negSucc n => (k, Nat.pow 2 (n + 1))

/-- The quotient to the nearest whole number; a half goes to the even neighbour. -/
def roundHalfEven (num den : Nat) : Nat :=
  let whole := num / den
  let rest := 2 * (num % den)
  if rest < den || (rest == den && whole % 2 == 0) then whole else whole + 1

/-- A non-negative finite number in units of `1 / perUnit`, to the nearest. -/
def unitsOf (x : Float) (perUnit : Nat) : Nat :=
  let b := Binary.ofFloat x
  let (num, den) := ratio b.m b.q
  roundHalfEven (num * perUnit) den

/-! ### Numbers from decimal text -/

/-- The largest finite number's exponent bounds every exponent that matters. -/
def exponentBound : Nat := 20000

/-- The number `m · 10 ^ e`, correctly rounded. -/
def ofScientific (m : Nat) (e : Int) : Float :=
  if m = 0 then 0.0
  else
    match e with
    | .ofNat n => if n > exponentBound then 1.0 / 0.0 else Float.ofScientific m false n
    | .negSucc n =>
      if n > exponentBound + (Nat.log2 m) then 0.0 else Float.ofScientific m true (n + 1)

/-- The whole number that a list of decimal digits spells. -/
def digitsValue (digits : List Char) : Nat :=
  digits.foldl (fun n c => n * 10 + (c.toNat - 48)) 0

/-- A sign at the start, and what follows it. -/
def takeSign : List Char → Bool × List Char
  | '-' :: s => (true, s)
  | '+' :: s => (false, s)
  | s => (false, s)

/-- The power of ten after an `e`; the whole text must be read. -/
def exponent? : List Char → Option Int
  | [] => some 0
  | c :: s =>
    if c == 'e' || c == 'E' then
      let (negative, digits) := takeSign s
      if digits.isEmpty || !digits.all Char.isDigit then none
      else some (if negative then -(digitsValue digits : Int) else digitsValue digits)
    else none

/-- An unsigned decimal number. -/
def magnitude? (s : List Char) : Option Float :=
  let lower := String.ofList (s.map Char.toLower)
  if lower == "inf" || lower == "infinity" then some (1.0 / 0.0)
  else if lower == "nan" then some (0.0 / 0.0)
  else
    let whole := s.takeWhile Char.isDigit
    let rest := s.dropWhile Char.isDigit
    let (places, rest) :=
      match rest with
      | '.' :: r => (r.takeWhile Char.isDigit, r.dropWhile Char.isDigit)
      | r => ([], r)
    if whole.isEmpty && places.isEmpty then none
    else (exponent? rest).map fun e => ofScientific (digitsValue (whole ++ places)) (e - places.length)

/-- The number that a text spells. -/
def ofText? (text : String) : Option Float :=
  let (negative, s) := takeSign text.toList
  (magnitude? s).map fun x => if negative then -x else x

end ScriptVault.Decimal
