/-!
# Ranges — sets of characters given by code point ranges

Unicode properties are tables of inclusive ranges; `Ranges.has` asks one of them about a character.
-/

namespace ScriptVault.Text

/-- A set of code points: the inclusive ranges that make it up, in increasing order. -/
abbrev Ranges := List (Nat × Nat)

/-- A range covers a code point. -/
def covers (n : Nat) (range : Nat × Nat) : Bool := range.1 ≤ n && n ≤ range.2

/-- The set has the character. -/
def Ranges.has (set : Ranges) (c : Char) : Bool := set.any (covers c.toNat)

end ScriptVault.Text
