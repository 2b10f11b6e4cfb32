/-!
# Glob — wildcard patterns for paths

`?` stands for any one character and `*` for any text, separators included; brackets hold a choice
of characters.  `**` must be a whole component and stands for any number of components.
-/

namespace ScriptVault.Pattern

/-- One piece of a wildcard pattern. -/
inductive Wild where
  /-- The character itself. -/
  | exactly (c : Char)
  /-- Any character. -/
  | anyChar
  /-- Any text. -/
  | anyText
  /-- Any number of components. -/
  | anyComponents
  /-- A character in one of the ranges. -/
  | within (ranges : List (Char × Char))
  /-- A character in none of the ranges. -/
  | except (ranges : List (Char × Char))
  deriving DecidableEq, Repr

/-- Why a text is no pattern. -/
inductive Wild.Fault where
  /-- More than two stars in a row. -/
  | wildcards
  /-- Two stars that are not a whole component. -/
  | recursive
  /-- An opening bracket without a choice. -/
  | range
  deriving DecidableEq, Repr

/-- The wording of a fault. -/
def Wild.Fault.message : Wild.Fault → String
  | wildcards => "wildcards are either regular `*` or recursive `**`"
  | recursive => "recursive wildcards must form a single path component"
  | range => "invalid range pattern"

/-- The ranges that the inside of brackets spells. -/
def Wild.ranges : List Char → List (Char × Char)
  | a :: '-' :: b :: rest => (a, b) :: ranges rest
  | a :: rest => (a, a) :: ranges rest
  | [] => []

/-- The inside of brackets after its first character, and what follows the brackets. -/
def Wild.choice? : List Char → Option (List Char × List Char)
  | [] => none
  | first :: rest =>
    match rest.dropWhile (· != ']') with
    | [] => none
    | _ :: after => some (first :: rest.takeWhile (· != ']'), after)

/-- Reads a pattern from position `pos` on; `previous` is the character before it. -/
def Wild.readFrom : Nat → Nat → Option Char → List Wild → List Char →
    Except (Wild.Fault × Nat) (List Wild)
  | 0, _, _, done, _ => .ok done.reverse
  | _ + 1, _, _, done, [] => .ok done.reverse
  | fuel + 1, pos, previous, done, c :: rest =>
    match c with
    | '?' => readFrom fuel (pos + 1) (some c) (.anyChar :: done) rest
    | '*' =>
      let stars := 1 + (rest.takeWhile (· == '*')).length
      let after := rest.dropWhile (· == '*')
      if 2 < stars then .error (.wildcards, pos + 2)
      else if stars = 1 then readFrom fuel (pos + 1) (some c) (.anyText :: done) rest
      else if previous.isSome && previous != some '/' then .error (.recursive, pos - 1)
      else
        let again := 1 < done.length && done.head? == some .anyComponents
        let done' := if again then done else .anyComponents :: done
        match after with
        | [] => .ok done'.reverse
        | '/' :: after' => readFrom fuel (pos + 3) (some '/') done' after'
        | _ => .error (.recursive, pos + 2)
    | '[' =>
      let negated := rest.head? == some '!'
      match choice? (if negated then rest.drop 1 else rest) with
      | none => .error (.range, pos)
      | some (inside, after) =>
        let piece := if negated then .except (ranges inside) else .within (ranges inside)
        let width := inside.length + (if negated then 3 else 2)
        readFrom fuel (pos + width) (some ']') (piece :: done) after
    | _ => readFrom fuel (pos + 1) (some c) (.exactly c :: done) rest

/-- The pattern that a text spells. -/
def Wild.read (text : List Char) : Except (Wild.Fault × Nat) (List Wild) :=
  readFrom (text.length + 1) 0 none [] text

/-- The character lies in one of the ranges. -/
def Wild.inRanges (ranges : List (Char × Char)) (c : Char) : Bool :=
  ranges.any fun (lo, hi) => lo ≤ c && c ≤ hi

/-- The character that one piece stands for. -/
def Wild.takes : Wild → Char → Bool
  | exactly a, c => a == c
  | anyChar, _ => true
  | within ranges, c => inRanges ranges c
  | except ranges, c => !inRanges ranges c
  | anyText, _ => false
  | anyComponents, _ => false

/-- The ends of a text: the text itself and all that is left when characters are taken away. -/
def ends : List Char → List (List Char)
  | [] => [[]]
  | c :: s => (c :: s) :: ends s

/-- What may be left of a text after any number of components: the whole, what follows a separator,
and nothing. -/
def componentEnds : List Char → List (List Char)
  | [] => [[]]
  | '/' :: s => s :: componentEnds s
  | _ :: s => componentEnds s

/-- The pattern stands for the whole text. -/
def Wild.isMatch : List Wild → List Char → Bool
  | [], s => s.isEmpty
  | .anyText :: rest, s => (ends s).any (isMatch rest)
  | .anyComponents :: rest, s => isMatch rest s || (componentEnds s).any (isMatch rest)
  | piece :: rest, c :: s => piece.takes c && isMatch rest s
  | _ :: _, [] => false

end ScriptVault.Pattern
