import Mathlib.Data.List.Basic
import ScriptVault.Text.Lines

/-!
# Lines — a text as the lines between its breaks

`Splits` says what the lines of a text are: nothing in a line is a break, and between two lines stands one break, a line
feed, a carriage return or both, where a carriage return takes a line feed behind it along.  A text has just one list of
lines, and it is cut into these (`splits_iff`).  Lines that were joined with line feeds are the lines of what was joined
(`splits_join`).
-/

namespace ScriptVault.Text

/-- Nothing in a text is a line break. -/
def IsLine (s : List Char) : Prop := '\n' ∉ s ∧ '\r' ∉ s

/-- The lines of a text. -/
inductive Splits : List Char → List (List Char) → Prop
  | last {line : List Char} : IsLine line → Splits line [line]
  | feed {line rest : List Char} {lines : List (List Char)} : IsLine line → Splits rest lines →
    Splits (line ++ '\n' :: rest) (line :: lines)
  | carriage {line rest : List Char} {lines : List (List Char)} : IsLine line → rest.head? ≠ some '\n' →
    Splits rest lines → Splits (line ++ '\r' :: rest) (line :: lines)
  | both {line rest : List Char} {lines : List (List Char)} : IsLine line → Splits rest lines →
    Splits (line ++ '\r' :: '\n' :: rest) (line :: lines)

variable {c : Char} {s l line : List Char} {ls lines : List (List Char)}

theorem isLine_nil : IsLine [] := ⟨List.not_mem_nil, List.not_mem_nil⟩

theorem isLine_cons : IsLine (c :: s) ↔ (c ≠ '\n' ∧ c ≠ '\r') ∧ IsLine s := by
  simp only [IsLine, List.mem_cons, not_or]
  constructor
  · rintro ⟨⟨hfeed, hs⟩, hreturn, hs'⟩
    exact ⟨⟨Ne.symm hfeed, Ne.symm hreturn⟩, hs, hs'⟩
  · rintro ⟨⟨hfeed, hreturn⟩, hs, hs'⟩
    exact ⟨⟨hfeed.symm, hs⟩, hreturn.symm, hs'⟩

theorem Splits.isLine (h : Splits s lines) : ∀ line ∈ lines, IsLine line := by
  induction h with
  | last hline => simpa using hline
  | feed hline _ ih => simpa using ⟨hline, ih⟩
  | carriage hline _ _ ih => simpa using ⟨hline, ih⟩
  | both hline _ ih => simpa using ⟨hline, ih⟩

theorem Splits.ne_nil (h : Splits s lines) : lines ≠ [] := by cases h <;> simp

/-- A character in front that is no break stands in the first line. -/
theorem Splits.cons (hc : c ≠ '\n' ∧ c ≠ '\r') (h : Splits s (l :: ls)) : Splits (c :: s) ((c :: l) :: ls) := by
  cases h with
  | last hline => exact .last (isLine_cons.2 ⟨hc, hline⟩)
  | feed hline hrest => exact .feed (isLine_cons.2 ⟨hc, hline⟩) hrest
  | carriage hline hhead hrest => exact .carriage (isLine_cons.2 ⟨hc, hline⟩) hhead hrest
  | both hline hrest => exact .both (isLine_cons.2 ⟨hc, hline⟩) hrest

theorem splits_cutLines (s : List Char) : Splits s (cutLines s) := by
  fun_induction cutLines s with
  | case1 => exact .last isLine_nil
  | case2 s ih => exact .both isLine_nil ih
  | case3 c s hpair hc ih =>
    rcases Bool.or_eq_true .. ▸ hc with hfeed | hreturn
    · obtain rfl := eq_of_beq hfeed
      exact .feed isLine_nil ih
    · obtain rfl := eq_of_beq hreturn
      refine .carriage isLine_nil ?_ ih
      intro hhead
      obtain ⟨rest, rfl⟩ := List.head?_eq_some_iff.1 hhead
      exact hpair rest rfl rfl
  | case4 c s _ _ hnil _ => exact absurd hnil (cutLines_ne_nil s)
  | case5 c s _ hc l ls hcut ih =>
    have hplain : c ≠ '\n' ∧ c ≠ '\r' := by simpa using hc
    exact .cons hplain (hcut ▸ ih)

theorem cutLines_cons (hc : c ≠ '\n' ∧ c ≠ '\r') (s : List Char) :
    cutLines (c :: s) = (cutLines s).modifyHead (c :: ·) := by
  rw [cutLines, if_neg (by simpa using hc)]
  · cases hcut : cutLines s with
    | nil => exact absurd hcut (cutLines_ne_nil s)
    | cons l ls => rfl
  · intro _ hreturn
    exact absurd hreturn hc.2

/-- A line in front of a text continues with the first of its lines. -/
theorem cutLines_append (hline : IsLine line) (s : List Char) :
    cutLines (line ++ s) = (cutLines s).modifyHead (line ++ ·) := by
  induction line with
  | nil => exact (congrFun List.modifyHead_id (cutLines s)).symm
  | cons c line ih =>
    obtain ⟨hc, hline⟩ := isLine_cons.1 hline
    rw [List.cons_append, cutLines_cons hc, ih hline, List.modifyHead_modifyHead]
    rfl

/-- A text is cut into its lines. -/
theorem splits_iff : Splits s lines ↔ lines = cutLines s := by
  constructor
  · intro h
    induction h with
    | @last line hline =>
      have hcut := cutLines_append hline []
      simpa [cutLines] using hcut.symm
    | feed hline _ ih => simp [cutLines_append hline, cutLines, ih]
    | @carriage line rest lines hline hhead _ ih =>
      have hcut : cutLines ('\r' :: rest) = [] :: cutLines rest := by
        rw [cutLines]
        · rfl
        · rintro s _ rfl
          exact hhead rfl
      simp [cutLines_append hline, hcut, ih]
    | both hline _ ih => simp [cutLines_append hline, cutLines, ih]
  · rintro rfl
    exact splits_cutLines s

theorem splits_join (hne : lines ≠ []) (h : ∀ line ∈ lines, IsLine line) : Splits (join ['\n'] lines) lines := by
  induction lines with
  | nil => exact absurd rfl hne
  | cons line lines ih =>
    obtain ⟨hline, hlines⟩ := List.forall_mem_cons.1 h
    cases lines with
    | nil => exact .last hline
    | cons next lines =>
      have hsplits := Splits.feed hline (ih (by simp) hlines)
      simpa [join] using hsplits

end ScriptVault.Text
