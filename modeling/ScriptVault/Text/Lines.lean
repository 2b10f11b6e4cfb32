import ScriptVault.Text.Pieces

/-!
# Lines — the lines of a text

`lines` follows the habit of line-oriented tools: a line ends with a line feed, which takes a carriage
return before it along, and the end of the text ends the last line only if something stands on it.
`cutLines` cuts at every line break, of whichever of the three kinds, and keeps an empty last line.
-/

namespace ScriptVault.Text

/-- Removes one carriage return from the end. -/
def dropReturn (s : List Char) : List Char := (before? ['\r'] s).getD s

/-- The lines of a text, without their line ends. -/
def lines (s : List Char) : List (List Char) :=
  match (pieces (· == '\n') s).reverse with
  | [] => []
  | last :: ended =>
    let ended := ended.reverse.map dropReturn
    if last.isEmpty then ended else ended ++ [last]

/-- The lines of a text with the line feeds that end them. -/
def linesWithEnds : List Char → List (List Char)
  | [] => []
  | c :: s =>
    if c == '\n' then [c] :: linesWithEnds s
    else
      match linesWithEnds s with
      | [] => [[c]]
      | l :: ls => (c :: l) :: ls

theorem flatten_linesWithEnds (s : List Char) : (linesWithEnds s).flatten = s := by
  induction s with
  | nil => rfl
  | cons c s ih =>
    unfold linesWithEnds
    split
    · simp [ih]
    · split
      · next h => rw [h] at ih; simp at ih; simp [ih]
      · next h => rw [h] at ih; simpa using ih

/-- Cuts a text at each carriage return with line feed, line feed and carriage return. -/
def cutLines : List Char → List (List Char)
  | [] => [[]]
  | '\r' :: '\n' :: s => [] :: cutLines s
  | c :: s =>
    if c == '\n' || c == '\r' then [] :: cutLines s
    else
      match cutLines s with
      | [] => [[c]]
      | l :: ls => (c :: l) :: ls

theorem cutLines_ne_nil (s : List Char) : cutLines s ≠ [] := by
  fun_induction cutLines s <;> simp

end ScriptVault.Text
