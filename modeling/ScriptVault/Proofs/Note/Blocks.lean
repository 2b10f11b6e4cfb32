import ScriptVault.Note
import ScriptVault.Proofs.Text.Lines

/-!
# Blocks — the code of a note

A line opens a block if it begins with a fence and no block that was opened before is still open, where a block takes
the line that closes it along (`Opens`).  So whether a line opens a block depends on all lines before it.  The walk over
the lines knows it from the one block that is open (`blockAfter_eq_some_iff`, by induction on the lines that were
walked over).  With that the script is told line by line: each line is that of the note or its comment, and it is that
of the note in the blocks whose language counts as code (`getElem?_scriptLines_eq_iff`).
-/

namespace ScriptVault.Note

open Text

variable {isCode : List Char → Bool} {block : Option Block} {b : Block} {line fence language : List Char}
  {lines : List (List Char)} {i j k m : Nat}

/-! ### Fences -/

/-- A line begins with a fence, and the rest of it is the language. -/
structure IsFenced (line fence language : List Char) : Prop where
  line_eq : line = fence ++ language
  long : 3 ≤ fence.length
  fence_only : ∀ c ∈ fence, c = '\x60' ∨ c = '~'
  maximal : ∀ c ∈ language.head?, c ≠ '\x60' ∧ c ≠ '~'

theorem isFence_iff {c : Char} : isFence c = true ↔ c = '\x60' ∨ c = '~' := by simp [isFence]

theorem opening?_eq_some_iff : opening? line = some (fence, language) ↔ IsFenced line fence language := by
  rw [opening?]
  constructor
  · intro h
    split at h
    · next hlong =>
      obtain ⟨rfl, rfl⟩ := Prod.mk.inj (Option.some.inj h)
      refine ⟨List.takeWhile_append_dropWhile.symm, hlong, ?_, ?_⟩
      · intro c hc
        exact isFence_iff.1 (List.all_eq_true.1 List.all_takeWhile c hc)
      · intro c hc
        have hstop := List.head?_dropWhile_not isFence line
        rw [hc] at hstop
        simpa [isFence] using hstop
    · cases h
  · rintro ⟨rfl, hlong, hfence, hmaximal⟩
    have hall : ∀ c ∈ fence, isFence c = true := fun c hc => isFence_iff.2 (hfence c hc)
    have hnone : language.takeWhile isFence = [] ∧ language.dropWhile isFence = language := by
      cases language with
      | nil => exact ⟨rfl, rfl⟩
      | cons c language =>
        have hc : ¬ isFence c = true := by simpa [isFence] using hmaximal c rfl
        exact ⟨List.takeWhile_cons_of_neg hc, List.dropWhile_cons_of_neg hc⟩
    rw [List.takeWhile_append_of_pos hall, List.dropWhile_append_of_pos hall, hnone.1, hnone.2, List.append_nil,
      if_pos hlong]

/-! ### Blocks -/

/-- A line of a text begins with a fence. -/
def Begins (lines : List (List Char)) (i : Nat) (fence : List Char) : Prop :=
  ∃ line, lines[i]? = some line ∧ fence <+: line

/-- A line opens a block with a fence and a language: each block that was opened before was closed before. -/
def Opens (lines : List (List Char)) (j : Nat) (fence language : List Char) : Prop :=
  (∃ line, lines[j]? = some line ∧ IsFenced line fence language) ∧
    ∀ k, k < j → ∀ fence language, Opens lines k fence language → ∃ m, k < m ∧ m < j ∧ Begins lines m fence
termination_by j

/-- A block that was opened before a line is not closed before it. -/
structure IsOpen (lines : List (List Char)) (i k : Nat) (fence language : List Char) : Prop where
  opens : Opens lines k fence language
  before : k < i
  not_closed : ∀ m, k < m → m < i → ¬ Begins lines m fence

theorem begins_iff (hline : lines[i]? = some line) : Begins lines i fence ↔ fence <+: line := by
  simp [Begins, hline]

/-- A line opens a block if it begins with a fence and no block is open. -/
theorem opens_iff (hline : lines[i]? = some line) :
    Opens lines i fence language ↔
      IsFenced line fence language ∧ ∀ k fence language, ¬ IsOpen lines i k fence language := by
  rw [Opens, hline]
  constructor
  · rintro ⟨⟨_, hsame, hfenced⟩, hclosed⟩
    obtain rfl := Option.some.inj hsame
    refine ⟨hfenced, ?_⟩
    intro k f l hopen
    obtain ⟨m, hkm, hmi, hm⟩ := hclosed k hopen.before f l hopen.opens
    exact hopen.not_closed m hkm hmi hm
  · rintro ⟨hfenced, hnone⟩
    refine ⟨⟨line, rfl, hfenced⟩, ?_⟩
    intro k hki f l hopens
    by_contra hnot
    exact hnone k f l ⟨hopens, hki, fun m hkm hmi hm => hnot ⟨m, hkm, hmi, hm⟩⟩

/-- The blocks that are open after a line are those that were open before and that it does not close, and the one that
it opens. -/
theorem isOpen_succ_iff (hline : lines[i]? = some line) :
    IsOpen lines (i + 1) k fence language ↔
      IsOpen lines i k fence language ∧ ¬ fence <+: line ∨ k = i ∧ Opens lines i fence language := by
  constructor
  · rintro ⟨hopens, hbefore, hnot⟩
    rcases Nat.lt_succ_iff_lt_or_eq.1 hbefore with hki | rfl
    · refine Or.inl ⟨⟨hopens, hki, fun m hkm hmi => hnot m hkm (by omega)⟩, ?_⟩
      rw [← begins_iff hline]
      exact hnot i hki (by omega)
    · exact Or.inr ⟨rfl, hopens⟩
  · rintro (⟨⟨hopens, hki, hnot⟩, hline'⟩ | ⟨rfl, hopens⟩)
    · refine ⟨hopens, by omega, ?_⟩
      intro m hkm hmi
      rcases Nat.lt_succ_iff_lt_or_eq.1 hmi with hmi | rfl
      · exact hnot m hkm hmi
      · rwa [begins_iff hline]
    · exact ⟨hopens, by omega, fun m hkm hmi => by omega⟩

/-- A line stands in an open block and does not close it when no line up to and with it begins with the fence. -/
theorem isOpen_not_closed_iff (hline : lines[i]? = some line) :
    IsOpen lines i j fence language ∧ ¬ fence <+: line ↔
      j < i ∧ Opens lines j fence language ∧ ∀ m, j < m → m ≤ i → ¬ Begins lines m fence := by
  constructor
  · rintro ⟨⟨hopens, hji, hnot⟩, hcloses⟩
    refine ⟨hji, hopens, ?_⟩
    intro m hjm hmi
    rcases Nat.lt_or_eq_of_le hmi with hmi | rfl
    · exact hnot m hjm hmi
    · rwa [begins_iff hline]
  · rintro ⟨hji, hopens, hnot⟩
    refine ⟨⟨hopens, hji, ?_⟩, ?_⟩
    · intro m hjm hmi
      exact hnot m hjm (Nat.le_of_lt hmi)
    · rw [← begins_iff hline]
      exact hnot i hji (Nat.le_refl i)

/-! ### The walk over the lines -/

/-- The block in which a line stands that follows some lines, when the first of them stands in a given block. -/
def blockAfter (isCode : List Char → Bool) (block : Option Block) (lines : List (List Char)) : Option Block :=
  lines.foldl (fun block line => (step isCode block line).1) block

theorem isSome_after?_iff : (after? fence line).isSome = true ↔ fence <+: line := by
  rw [Option.isSome_iff_exists]
  simp only [after?_eq_some_iff]
  exact exists_congr fun rest => eq_comm

/-- The block after a line is the one before it, unless the line closes it, or else the one that it opens. -/
theorem step_fst_eq_some_iff :
    (step isCode block line).1 = some b ↔
      block = some b ∧ ¬ b.fence <+: line ∨
        block = none ∧ ∃ language, IsFenced line b.fence language ∧ b.isCode = isCode language := by
  cases block with
  | none =>
    simp only [step, Option.map_eq_some_iff, Prod.exists, opening?_eq_some_iff, reduceCtorEq, false_and, false_or,
      true_and]
    constructor
    · rintro ⟨fence, language, hfenced, rfl⟩
      exact ⟨language, hfenced, rfl⟩
    · rintro ⟨language, hfenced, hcode⟩
      exact ⟨b.fence, language, hfenced, by rw [← hcode]⟩
  | some block =>
    simp only [step, isSome_after?_iff, Option.some.injEq, reduceCtorEq, false_and, or_false]
    split
    · next hcloses =>
      simp only [reduceCtorEq, false_iff, not_and, not_not]
      rintro rfl
      exact hcloses
    · next hcloses =>
      simp only [Option.some.injEq, iff_self_and]
      rintro rfl
      exact hcloses

/-- A line stands as it is in a code block that it does not close. -/
theorem step_snd (isCode : List Char → Bool) (block : Option Block) (line : List Char) :
    (step isCode block line).2 =
      if ∃ b, block = some b ∧ b.isCode = true ∧ ¬ b.fence <+: line then line else comment line := by
  cases block with
  | none => simp [step]
  | some block =>
    simp only [step, isSome_after?_iff, Option.some.injEq, exists_eq_left']
    by_cases hcloses : block.fence <+: line
    · simp [hcloses]
    · simp [hcloses]

/-- After some lines of a text, the walk is in the block that is open there. -/
theorem blockAfter_eq_some_iff (hi : i ≤ lines.length) :
    blockAfter isCode none (lines.take i) = some b ↔
      ∃ k language, IsOpen lines i k b.fence language ∧ b.isCode = isCode language := by
  induction i generalizing b with
  | zero =>
    simp only [List.take_zero, blockAfter, List.foldl_nil, reduceCtorEq, false_iff]
    rintro ⟨k, language, hopen, -⟩
    exact absurd hopen.before (Nat.not_lt_zero k)
  | succ i ih =>
    have hline : lines[i]? = some lines[i] := List.getElem?_eq_getElem hi
    have hbefore : i ≤ lines.length := Nat.le_of_succ_le hi
    have hnone : blockAfter isCode none (lines.take i) = none ↔ ∀ k f l, ¬ IsOpen lines i k f l := by
      rw [Option.eq_none_iff_forall_ne_some]
      constructor
      · intro hne k f l hopen
        exact hne ⟨f, isCode l⟩ ((ih hbefore).2 ⟨k, l, hopen, rfl⟩)
      · intro hne b hb
        obtain ⟨k, l, hopen, -⟩ := (ih hbefore).1 hb
        exact hne k b.fence l hopen
    have hstep : blockAfter isCode none (lines.take (i + 1)) =
        (step isCode (blockAfter isCode none (lines.take i)) lines[i]).1 := by
      rw [blockAfter, List.take_add_one, hline, List.foldl_append]
      rfl
    simp only [hstep, step_fst_eq_some_iff, ih hbefore, hnone, isOpen_succ_iff hline, opens_iff hline]
    constructor
    · rintro (⟨⟨k, language, hopen, hcode⟩, hcloses⟩ | ⟨hopen, language, hfenced, hcode⟩)
      · exact ⟨k, language, Or.inl ⟨hopen, hcloses⟩, hcode⟩
      · exact ⟨i, language, Or.inr ⟨rfl, hfenced, hopen⟩, hcode⟩
    · rintro ⟨k, language, ⟨hopen, hcloses⟩ | ⟨rfl, hfenced, hopen⟩, hcode⟩
      · exact Or.inl ⟨⟨k, language, hopen, hcode⟩, hcloses⟩
      · exact Or.inr ⟨hopen, language, hfenced, hcode⟩

/-! ### The lines of the script -/

theorem length_scriptLines (isCode : List Char → Bool) (block : Option Block) (lines : List (List Char)) :
    (scriptLines isCode block lines).length = lines.length := by
  induction lines generalizing block with
  | nil => rfl
  | cons line lines ih => simp [scriptLines, ih]

/-- Each line is taken from the block that the lines before it lead to. -/
theorem getElem?_scriptLines (isCode : List Char → Bool) (block : Option Block) (lines : List (List Char)) (i : Nat) :
    (scriptLines isCode block lines)[i]? =
      lines[i]?.map fun line => (step isCode (blockAfter isCode block (lines.take i)) line).2 := by
  induction lines generalizing block i with
  | nil => rfl
  | cons line lines ih =>
    cases i with
    | zero => rfl
    | succ i => simp [scriptLines, ih, blockAfter]

theorem isLine_comment (hline : IsLine line) : IsLine (comment line) := by
  have hsigns : ∀ c ∈ ['/', '/', ' '], c ≠ '\n' ∧ c ≠ '\r' := by simp
  exact isLine_cons.2 ⟨hsigns '/' (by simp), isLine_cons.2 ⟨hsigns '/' (by simp),
    isLine_cons.2 ⟨hsigns ' ' (by simp), hline⟩⟩⟩

theorem comment_ne (line : List Char) : comment line ≠ line := by
  intro h
  have hlength := congrArg List.length h
  simp only [comment, List.length_cons] at hlength
  omega

theorem isLine_scriptLines (hlines : ∀ line ∈ lines, IsLine line) :
    ∀ line ∈ scriptLines isCode block lines, IsLine line := by
  intro out hout
  obtain ⟨i, hi⟩ := List.mem_iff_getElem?.1 hout
  rw [getElem?_scriptLines, Option.map_eq_some_iff] at hi
  obtain ⟨line, hline, rfl⟩ := hi
  have hplain := hlines line (List.mem_of_getElem? hline)
  rw [step_snd]
  split
  · exact hplain
  · exact isLine_comment hplain

theorem splits_scriptLines {content : List Char} (h : Splits content lines) :
    Splits (join ['\n'] (scriptLines isCode block lines)) (scriptLines isCode block lines) := by
  apply splits_join
  · apply List.ne_nil_of_length_pos
    rw [length_scriptLines]
    exact List.length_pos_iff.2 h.ne_nil
  · exact isLine_scriptLines h.isLine

/-- A line of a note stands in the script as it is when it is in a code block and does not close it. -/
theorem getElem?_scriptLines_eq_iff (hline : lines[i]? = some line) :
    (scriptLines isCode none lines)[i]? = some line ↔
      ∃ j fence language, (IsOpen lines i j fence language ∧ ¬ fence <+: line) ∧ isCode language = true := by
  have hi : i ≤ lines.length := Nat.le_of_lt (List.getElem?_eq_some_iff.1 hline).1
  have hkept : (if ∃ b, blockAfter isCode none (lines.take i) = some b ∧ b.isCode = true ∧ ¬ b.fence <+: line
      then line else comment line) = line ↔
      ∃ b, blockAfter isCode none (lines.take i) = some b ∧ b.isCode = true ∧ ¬ b.fence <+: line := by
    simp [comment_ne]
  rw [getElem?_scriptLines, hline, Option.map_some, Option.some.injEq, step_snd, hkept]
  simp only [blockAfter_eq_some_iff hi]
  constructor
  · rintro ⟨b, ⟨j, language, hopen, hcode⟩, hb, hcloses⟩
    exact ⟨j, b.fence, language, ⟨hopen, hcloses⟩, hcode ▸ hb⟩
  · rintro ⟨j, fence, language, ⟨hopen, hcloses⟩, hcode⟩
    exact ⟨⟨fence, true⟩, ⟨j, language, hopen, hcode.symm⟩, rfl, hcloses⟩

/-- The script in a note has the lines of the note, each as it is or as a comment.  A line is as it is just in a code
block of a language that counts as code: behind a line that opens a block with such a language, with no line up to and
with it that begins with the fence of the block. -/
theorem script_line_by_line (settings : Settings) (content : String) :
    ∃ before after, (∀ lines, Splits content.toList lines ↔ lines = before) ∧
      (∀ lines, Splits (script settings content).toList lines ↔ lines = after) ∧
      after.length = before.length ∧
      ∀ i line, before[i]? = some line →
        (after[i]? = some line ∨ after[i]? = some (comment line)) ∧
        (after[i]? = some line ↔
          ∃ j fence language, (j < i ∧ Opens before j fence language ∧
            ∀ m, j < m → m ≤ i → ¬ Begins before m fence) ∧
            ∃ listed ∈ settings.codeBlockLanguages, listed.toList.map Char.toLower = language.map Char.toLower) := by
  let isCode (language : List Char) := settings.loadsLanguage (String.ofList language)
  have hlisted (language : List Char) : isCode language = true ↔
      ∃ listed ∈ settings.codeBlockLanguages, listed.toList.map Char.toLower = language.map Char.toLower := by
    simp [isCode, Settings.loadsLanguage, Settings.sameLetters]
  have hscript : Splits (script settings content).toList (scriptLines isCode none (cutLines content.toList)) := by
    rw [script, String.toList_ofList]
    exact splits_scriptLines (splits_cutLines content.toList)
  refine ⟨cutLines content.toList, scriptLines isCode none (cutLines content.toList), fun lines => splits_iff, ?_,
    length_scriptLines .., ?_⟩
  · intro lines
    rw [splits_iff, ← splits_iff.1 hscript]
  · intro i line hline
    constructor
    · rw [getElem?_scriptLines, hline, Option.map_some, step_snd]
      split
      · exact Or.inl rfl
      · exact Or.inr rfl
    · simp only [getElem?_scriptLines_eq_iff hline, isOpen_not_closed_iff hline, hlisted]

/-- In the block of `~~~JS` the line is kept, though a line of the other fence stands before it. -/
theorem script_line_by_line_nested :
    ∃ before after, Splits "a\r\n~~~JS\r\x60\x60\x60ts\nx\n~~~".toList before ∧
      Splits (script {} "a\r\n~~~JS\r\x60\x60\x60ts\nx\n~~~").toList after ∧
      before[3]? = some ['x'] ∧ Opens before 1 "~~~".toList "JS".toList ∧ after[3]? = some ['x'] := by
  obtain ⟨before, after, hbefore, hafter, -, hlines⟩ :=
    script_line_by_line {} "a\r\n~~~JS\r\x60\x60\x60ts\nx\n~~~"
  obtain rfl := (hbefore _).1 (splits_cutLines _)
  have hopens : Opens (cutLines "a\r\n~~~JS\r\x60\x60\x60ts\nx\n~~~".toList) 1 "~~~".toList "JS".toList := by
    refine (@opens_iff "~~~JS".toList _ _ _ _ rfl).2 ⟨⟨rfl, by simp, by simp, by simp⟩, ?_⟩
    intro k fence language hopen
    obtain rfl : k = 0 := Nat.lt_one_iff.1 hopen.before
    have hfenced := ((@opens_iff ['a'] _ _ _ _ rfl).1 hopen.opens).1
    have hlength := congrArg List.length hfenced.line_eq
    have hlong := hfenced.long
    simp only [List.length_cons, List.length_nil, List.length_append] at hlength
    omega
  refine ⟨_, after, (hbefore _).2 rfl, (hafter _).2 rfl, rfl, hopens, ?_⟩
  refine (hlines 3 ['x'] rfl).2.2 ⟨1, _, _, ⟨by decide, hopens, ?_⟩, "JS", ?_, rfl⟩
  · intro m hm hm3
    obtain rfl | rfl : m = 2 ∨ m = 3 := by omega
    · exact mt (@begins_iff "\x60\x60\x60ts".toList _ _ _ rfl).1 (by decide)
    · exact mt (@begins_iff "x".toList _ _ _ rfl).1 (by decide)
  · decide

end ScriptVault.Note
