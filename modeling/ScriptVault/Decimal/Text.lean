import ScriptVault.Decimal.Read

/-!
# Text — floating point numbers as text

The reals nearer to a finite number than to any other form an interval around it, whose ends belong to it when the
number's binary factor is even.  For one digit, two digits, and so on, `shortest` looks at the two neighbours of the
number on that decimal grid; the first grid with a neighbour inside the interval wins, and of two neighbours inside the
nearer one.  `plain` writes these digits without an exponent and marks no whole number by a point;
`Layout.scientific` writes the form of JSON, where long numbers get an exponent and whole ones a point.
-/

namespace ScriptVault.Decimal

/-! ### The fewest digits that read back -/

/-- A decimal number `digits · 10 ^ exponent`. -/
structure Digits where
  /-- The digits, read as a whole number. -/
  digits : Nat
  /-- The power of ten. -/
  exponent : Int
  deriving DecidableEq, Repr

/-- Which of two equally near decimals is taken. -/
inductive Tie where
  /-- The larger one. -/
  | up
  /-- The one with the even last digit. -/
  | even
  deriving DecidableEq, Repr

/-- The least `k` from `start` on with `den ≤ num · 10 ^ k`; at most `fuel` further steps. -/
def leadingPlace (num den : Nat) : Nat → Nat → Nat
  | 0, start => start
  | fuel + 1, start =>
    if den ≤ num * Nat.pow 10 start then start else leadingPlace num den fuel (start + 1)

/-- The power of ten of the leading digit of a positive quotient. -/
def magnitude (num den : Nat) : Int :=
  if den ≤ num then ((Nat.toDigits 10 (num / den)).length : Int) - 1
  else -(leadingPlace num den 400 1 : Int)

/-- The quotient over `10 ^ e`, again as a quotient. -/
def onGrid (num den : Nat) (e : Int) : Nat × Nat :=
  match e with
  | .ofNat n => (num, den * Nat.pow 10 n)
  | .negSucc n => (num * Nat.pow 10 (n + 1), den)

/-- The decimal with `count` digits that lies in the interval of the number, if there is one. -/
def candidate? (b : Binary) (tie : Tie) (count : Nat) : Option Digits :=
  let (value, den) := ratio (4 * b.m) (b.q - 2)
  let unit := (ratio 1 (b.q - 2)).1
  let lowGap := if b.m = Nat.pow 2 52 && b.q != -1074 then unit else 2 * unit
  let highGap := 2 * unit
  let e := magnitude value den + 1 - count
  let (scaled, grid) := onGrid value den e
  let low := (onGrid (value - lowGap) den e).1
  let high := (onGrid (value + highGap) den e).1
  let inside (n : Nat) : Bool :=
    if b.m % 2 == 0 then low ≤ n * grid && n * grid ≤ high else low < n * grid && n * grid < high
  let below := scaled / grid
  let toBelow := scaled - below * grid
  let toAbove := (below + 1) * grid - scaled
  let aboveIsBest :=
    if toAbove == toBelow then tie == .up || below % 2 == 1 else toAbove < toBelow
  match inside below && below != 0, inside (below + 1) with
  | true, true => some ⟨if aboveIsBest then below + 1 else below, e⟩
  | true, false => some ⟨below, e⟩
  | false, true => some ⟨below + 1, e⟩
  | false, false => none

/-- The fewest digits that read back to a positive finite number. -/
def shortest (tie : Tie) (x : Float) : Digits :=
  let b := Binary.ofFloat x
  (((List.range 17).map (· + 1)).findSome? (candidate? b tie)).getD ⟨0, 0⟩

/-! ### How the digits are written -/

/-- The digits of a decimal without trailing zeros. -/
def Digits.trimmed (d : Digits) : List Char × Int :=
  let all := Nat.toDigits 10 d.digits
  let kept := (all.reverse.dropWhile (· == '0')).reverse
  (kept, d.exponent + (all.length - kept.length : Nat))

/-- A decimal in positional notation. -/
def Digits.positional (d : Digits) : List Char :=
  let (digits, exponent) := d.trimmed
  match exponent with
  | .ofNat n => digits ++ List.replicate n '0'
  | .negSucc n =>
    let places := n + 1
    if digits.length ≤ places then
      ['0', '.'] ++ List.replicate (places - digits.length) '0' ++ digits
    else
      digits.take (digits.length - places) ++ ['.'] ++ digits.drop (digits.length - places)

/-- The magnitude of a finite number in positional notation. -/
def magnitudeText (x : Float) : List Char :=
  let b := Binary.ofFloat x
  if b.m = 0 then ['0'] else (shortest .up x).positional

/-- A number without an exponent: the fewest digits that read back, and no point on whole numbers. -/
def plain (x : Float) : String :=
  if x.isNaN then "NaN"
  else
    let sign := if isNegative x then "-" else ""
    if x.isInf then sign ++ "inf" else sign ++ String.ofList (magnitudeText x)

/-- A finite number as JSON writes it: positional between `10 ^ -5` and `10 ^ 16`, with a point. -/
def jsonMagnitude (x : Float) : List Char :=
  if (Binary.ofFloat x).m = 0 then ['0', '.', '0']
  else
    let (digits, exponent) := (shortest .even x).trimmed
    let point := exponent + digits.length
    if 0 ≤ exponent && point ≤ 16 then
      digits ++ List.replicate exponent.toNat '0' ++ ['.', '0']
    else if 0 < point && point ≤ 16 then
      digits.take point.toNat ++ ['.'] ++ digits.drop point.toNat
    else if -5 < point && point ≤ 0 then
      ['0', '.'] ++ List.replicate (-point).toNat '0' ++ digits
    else
      let tail := digits.drop 1
      let mantissa := digits.take 1 ++ (if tail.isEmpty then [] else '.' :: tail)
      mantissa ++ ['e'] ++ (toString (point - 1)).toList

/-- A finite number as JSON writes it. -/
def json (x : Float) : String :=
  (if isNegative x then "-" else "") ++ String.ofList (jsonMagnitude x)

end ScriptVault.Decimal
