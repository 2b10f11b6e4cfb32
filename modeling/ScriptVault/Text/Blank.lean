/-!
# Blank — white space, and what is left without it

`Text.isBlank` is the Unicode property `White_Space`.  The trims drop blank characters from the ends
of a text and keep all else.
-/

namespace ScriptVault.Text

/-- The characters with the Unicode property `White_Space`. -/
def isBlank (c : Char) : Bool :=
  let n := c.toNat
  (9 ≤ n && n ≤ 13) || n == 0x20 || n == 0x85 || n == 0xA0 || n == 0x1680 ||
    (0x2000 ≤ n && n ≤ 0x200A) || n == 0x2028 || n == 0x2029 || n == 0x202F || n == 0x205F ||
    n == 0x3000

/-- Drops the characters that `drop` accepts from the end. -/
def dropEndWhile (drop : Char → Bool) (s : List Char) : List Char :=
  (s.reverse.dropWhile drop).reverse

/-- Drops blank characters from the start. -/
def trimStart (s : List Char) : List Char := s.dropWhile isBlank

/-- Drops blank characters from both ends. -/
def trim (s : List Char) : List Char := dropEndWhile isBlank (trimStart s)

theorem isBlank_of_isWhitespace {c : Char} (h : c.isWhitespace = true) : isBlank c = true := by
  simp only [Char.isWhitespace, Bool.or_eq_true, decide_eq_true_eq] at h
  rcases h with ((rfl | rfl) | rfl) | rfl <;> decide

end ScriptVault.Text
