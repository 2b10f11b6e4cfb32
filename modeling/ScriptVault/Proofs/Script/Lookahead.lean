import Mathlib.Data.List.Basic
import Mathlib.Data.List.TakeWhile
import ScriptVault.Script.Scanner

/-!
# Lookahead — what the scanner sees of the text after a token

A token or a gap is read up to its end and the scanner looks at most two characters further.  `Alike` are two
texts that it cannot tell apart so: they are equal up to the first place where one begins with `require` or
a quote and the other with `self` or a double quote, or where the one is at its end and the other at the end of
a line.  Every part of the scanner reads the same in front of texts that are alike.  What a token asks of the text
behind it is `Closes`, and what a line asks is `EndsLine`; texts that are alike answer both the same.
-/

namespace ScriptVault.Script

open Text (isBlank isIdContinue isIdStart)

theorem after?_pair_iff {a b : Char} {s : List Char} :
    (Text.after? [a, b] s).isSome = true ↔ s.head? = some a ∧ s.tail.head? = some b := by
  simp only [Option.isSome_iff_exists, Text.after?_eq_some_iff]
  constructor
  · rintro ⟨rest, rfl⟩
    exact ⟨rfl, rfl⟩
  · rintro ⟨ha, hb⟩
    exact ⟨s.tail.tail, by rw [List.eq_cons_of_mem_head? ha, List.eq_cons_of_mem_head? hb]; rfl⟩

/-- Two texts that are equal, or equal up to the beginning of a callee or of a literal or to the end of one of
them. -/
inductive Alike : List Char → List Char → Prop
  | refl (s : List Char) : Alike s s
  | cons (c : Char) {s s' : List Char} : Alike s s' → Alike (c :: s) (c :: s')
  | callee (s s' : List Char) : Alike ('r' :: s) ('s' :: s')
  | literal {quote : Char} (h : quote = '\x22' ∨ quote = '\x27') (s s' : List Char) :
      Alike (quote :: s) ('\x22' :: s')
  | ended (s' : List Char) : Alike [] ('\n' :: s')

namespace Alike

variable {s s' : List Char}

theorem append (w : List Char) (h : Alike s s') : Alike (w ++ s) (w ++ s') := by
  induction w with
  | nil => exact h
  | cons c w ih => exact ih.cons c

/-- A text goes on after its end with a new line. -/
theorem extended (s t : List Char) : Alike s (s ++ '\n' :: t) := by
  simpa using (Alike.ended t).append s

/-- A test of the next character that takes the letters `r` and `s` for one, and the quotes too, and that the end
of a line does not pass. -/
theorem head?_any {p : Char → Bool} (hcallee : p 's' = p 'r') (hquote : p '\x27' = p '\x22')
    (hline : p '\n' = false) (h : Alike s s') : s'.head?.any p = s.head?.any p := by
  cases h with
  | refl => rfl
  | cons c h => rfl
  | callee s s' => simpa using hcallee
  | literal hq s s' => rcases hq with rfl | rfl <;> simp [hquote]
  | ended s' => simpa using hline

theorem digitNext_eq (h : Alike s s') : digitNext s' = digitNext s :=
  h.head?_any (by decide) (by decide) (by decide)

theorem head?_eq_iff {a : Char} (ha : a ∉ ['r', 's', '\x22', '\x27', '\n']) (h : Alike s s') :
    s'.head? = some a ↔ s.head? = some a := by
  simp only [List.mem_cons, List.not_mem_nil, or_false, not_or, eq_comm (a := a)] at ha
  obtain ⟨hr, hs, hdouble, hsingle, hline⟩ := ha
  cases h with
  | refl => rfl
  | cons c h => rfl
  | callee s s' => simp [hr, hs]
  | literal hq s s' => rcases hq with rfl | rfl <;> simp [hdouble, hsingle]
  | ended s' => simp [hline]

/-- Behind a character that is none of the letters and quotes they are still alike. -/
theorem tail {a : Char} (ha : a ∉ ['r', 's', '\x22', '\x27', '\n']) (h : Alike s s') (hhead : s.head? = some a) :
    Alike s.tail s'.tail := by
  cases h with
  | refl => exact .refl _
  | cons c h => exact h
  | callee s s' => exact absurd (Option.some.inj hhead).symm fun hr => ha (by simp [hr])
  | literal hq s s' =>
    obtain rfl := Option.some.inj hhead
    rcases hq with rfl | rfl <;> exact absurd (by decide) ha
  | ended s' => cases hhead

/-- A beginning of two characters that holds neither of the two letters nor a quote nor the end of a line. -/
theorem after?_isSome {a b : Char} (ha : a ∉ ['r', 's', '\x22', '\x27', '\n'])
    (hb : b ∉ ['r', 's', '\x22', '\x27', '\n']) (h : Alike s s') :
    (Text.after? [a, b] s').isSome = (Text.after? [a, b] s).isSome := by
  rw [Bool.eq_iff_iff, after?_pair_iff, after?_pair_iff, h.head?_eq_iff ha]
  exact and_congr_right fun hhead => (h.tail ha hhead).head?_eq_iff hb

end Alike

theorem dropNumber_suffix (signs : Bool) (previous : Char) (s : List Char) : dropNumber signs previous s <:+ s := by
  fun_induction dropNumber signs previous s with
  | case1 => exact List.suffix_rfl
  | case2 previous c rest exponentSign hc ih => exact ih.trans (List.suffix_cons c rest)
  | case3 => exact List.suffix_rfl

/-- A number that ends before a character does not take it. -/
theorem not_inNumber {signs : Bool} {previous c : Char} {s : List Char}
    (h : dropNumber signs previous (c :: s) = c :: s) :
    ¬(c.isAlphanum || c == '_' || c == '.' ||
      (c == '+' || c == '-') && (previous == 'e' || previous == 'E') && signs) = true := by
  intro hc
  -- what is left of a text is not the whole when its first character is dropped
  have hshort := (dropNumber_suffix signs c s).length_le
  rw [dropNumber, if_pos hc] at h
  rw [h, List.length_cons] at hshort
  omega

/-- A character that does not end its line. -/
def inLine (c : Char) : Bool := c != '\n' && c != '\r'

/-- A line that ends before the one text ends before the other. -/
def EndsLine (s s' : List Char) : Prop := s.head?.any inLine = false → s'.head?.any inLine = false

theorem EndsLine.append {s s' : List Char} (w : List Char) (h : EndsLine s s') : EndsLine (w ++ s) (w ++ s') := by
  cases w with
  | nil => exact h
  | cons c w => exact id

/-- A token that ends before the one text ends before the other. -/
structure Closes (s s' : List Char) : Prop where
  word : s.head?.any isIdContinue = false → s'.head?.any isIdContinue = false
  number : ∀ signs previous, dropNumber signs previous s = s → dropNumber signs previous s' = s'
  digit : digitNext s = false → digitNext s' = false
  dot : s'.head? = some '.' → digitNext s'.tail = false → s.head? = some '.' ∧ digitNext s.tail = false

namespace Alike

variable {s s' : List Char}

theorem endsLine (h : Alike s s') : EndsLine s s' := by
  intro hline
  rwa [h.head?_any (by decide) (by decide) (by decide)]

theorem dropNumber_eq (h : Alike s s') {signs : Bool} {previous : Char}
    (hstop : dropNumber signs previous s = s) : dropNumber signs previous s' = s' := by
  cases h with
  | refl => exact hstop
  | cons c h => rw [dropNumber, if_neg (not_inNumber hstop)]
  | callee => exact absurd (not_inNumber hstop) (by simp)
  | literal hq s s' => simp [dropNumber]
  | ended s' => simp [dropNumber]

theorem closes (h : Alike s s') : Closes s s' where
  word hword := by rwa [h.head?_any (by decide) (by decide) (by decide)]
  number _ _ := h.dropNumber_eq
  digit hdigit := by rwa [h.digitNext_eq]
  dot hdot hdigit := by
    have hdot₀ := (h.head?_eq_iff (by decide)).1 hdot
    exact ⟨hdot₀, by rwa [(h.tail (by decide) hdot₀).digitNext_eq] at hdigit⟩

end Alike

theorem head?_dropWhile_any (p : Char → Bool) (s : List Char) : (s.dropWhile p).head?.any p = false := by
  have hstop := List.head?_dropWhile_not p s
  cases hhead : (s.dropWhile p).head? with
  | none => rfl
  | some c => simpa [hhead] using hstop

/-- What a test takes from the front ends before every text whose first character it does not take. -/
theorem takeWhile_local {p : Char → Bool} (s : List Char) {s' : List Char} (hhead : s'.head?.any p = false) :
    (s.takeWhile p ++ s').takeWhile p = s.takeWhile p ∧ (s.takeWhile p ++ s').dropWhile p = s' := by
  have hstop : s'.takeWhile p = [] ∧ s'.dropWhile p = s' := by
    cases s' with
    | nil => exact ⟨rfl, rfl⟩
    | cons c s' =>
      have hc : p c = false := by simpa using hhead
      exact ⟨List.takeWhile_cons_of_neg (by simp [hc]), List.dropWhile_cons_of_neg (by simp [hc])⟩
  have hall : ∀ c ∈ s.takeWhile p, p c = true := fun c hc => List.mem_takeWhile_imp hc
  constructor
  · rw [List.takeWhile_append_of_pos hall, hstop.1, List.append_nil]
  · rw [List.dropWhile_append_of_pos hall, hstop.2]

/-- A word is read up to its end. -/
theorem word_local (s : List Char) {s' : List Char} (h : Closes (s.dropWhile isIdContinue) s') :
    (s.takeWhile isIdContinue ++ s').takeWhile isIdContinue = s.takeWhile isIdContinue ∧
      (s.takeWhile isIdContinue ++ s').dropWhile isIdContinue = s' :=
  takeWhile_local s (h.word (head?_dropWhile_any isIdContinue s))

/-! ### Literals -/

theorem takeText_quote {quote : Char} (hn : quote ≠ '\n') (rest done : List Char) :
    takeText quote (quote :: rest) done = (.text (String.ofList done.reverse), rest) := by
  cases rest with
  | nil => simp [takeText]
  | cons e rest => simp [takeText]

/-- A string literal is read up to its closing quote, whatever follows. -/
theorem takeText_local {quote : Char} (hn : quote ≠ '\n') {s done after : List Char} {value : String}
    (h : takeText quote s done = (.text value, after)) :
    ∃ w, s = w ++ after ∧ ∀ after', takeText quote (w ++ after') done = (.text value, after') := by
  fun_induction takeText quote s done with
  | case1 => simp at h
  | case2 => simp at h
  | case3 done =>
    simp only [Prod.mk.injEq, Kind.text.injEq] at h
    obtain ⟨rfl, rfl⟩ := h
    exact ⟨[quote], rfl, fun after' => takeText_quote hn after' done⟩
  | case4 => simp at h
  | case5 e rest done =>
    simp only [Prod.mk.injEq, Kind.text.injEq] at h
    obtain ⟨rfl, rfl⟩ := h
    exact ⟨[quote], rfl, fun after' => takeText_quote hn after' done⟩
  | case6 rest done _ hquote ih =>
    obtain ⟨w, hw, hread⟩ := ih h
    refine ⟨'\\' :: '\n' :: w, by rw [hw]; rfl, fun after' => ?_⟩
    simpa [takeText, hquote] using hread after'
  | case7 e rest done he _ hquote ih =>
    obtain ⟨w, hw, hread⟩ := ih h
    refine ⟨'\\' :: e :: w, by rw [hw]; rfl, fun after' => ?_⟩
    simpa [takeText, hquote, he] using hread after'
  | case8 c e rest done hc hquote hback ih =>
    obtain ⟨w, hw, hread⟩ := ih h
    refine ⟨c :: w, by rw [hw]; rfl, fun after' => ?_⟩
    -- the next character is there in front of every text: a text without one has no closing quote
    cases hnext : w ++ after' with
    | nil =>
      have hread' := hread after'
      rw [hnext] at hread'
      simp [takeText] at hread'
    | cons e' rest' =>
      rw [List.cons_append, hnext, takeText, if_neg hquote, if_neg hback, ← hnext]
      · exact hread after'
      · exact hc

/-- A piece of a template is read up to its end, whatever follows. -/
theorem takeTemplate_local {s after : List Char} {opens : Bool}
    (h : takeTemplate s = some (opens, after)) :
    ∃ w, s = w ++ after ∧ ∀ after', takeTemplate (w ++ after') = some (opens, after') := by
  fun_induction takeTemplate s with
  | case1 => simp at h
  | case2 rest =>
    simp only [Option.some.injEq, Prod.mk.injEq] at h
    obtain ⟨rfl, rfl⟩ := h
    exact ⟨['\x60'], rfl, fun after' => rfl⟩
  | case3 rest =>
    simp only [Option.some.injEq, Prod.mk.injEq] at h
    obtain ⟨rfl, rfl⟩ := h
    exact ⟨['$', '\x7b'], rfl, fun after' => rfl⟩
  | case4 e rest ih =>
    obtain ⟨w, hw, hread⟩ := ih h
    exact ⟨'\\' :: e :: w, by rw [hw]; rfl, hread⟩
  | case5 c rest htick hdollar hback ih =>
    obtain ⟨w, hw, hread⟩ := ih h
    refine ⟨c :: w, by rw [hw]; rfl, fun after' => ?_⟩
    -- the piece does not end here, so the character after `c` belongs to it
    cases w with
    | nil => simpa [takeTemplate] using hread []
    | cons e w =>
      rw [← hread after', List.cons_append, takeTemplate]
      · exact htick
      · rintro rest' rfl heq
        exact hdollar (w ++ after) rfl (by rw [hw, List.cons_append, (List.cons.inj heq).1])
      · rintro e' rest' rfl -
        exact hback e (w ++ after) rfl hw

/-- A regular expression is read up to the end of its flags. -/
theorem takeRegex_local {inClass : Bool} {s after : List Char} (h : takeRegex inClass s = .ok after) :
    ∃ w, s = w ++ after ∧
      ∀ after', Closes after after' → takeRegex inClass (w ++ after') = .ok after' := by
  fun_induction takeRegex inClass s with
  | case1 => simp at h
  | case2 => simp at h
  | case3 inClass e rest ih =>
    obtain ⟨w, hw, hread⟩ := ih h
    refine ⟨'\\' :: e :: w, by rw [hw]; rfl, fun after' hcloses => ?_⟩
    simpa [takeRegex] using hread after' hcloses
  | case4 inClass rest _ _ ih =>
    obtain ⟨w, hw, hread⟩ := ih h
    refine ⟨'[' :: w, by rw [hw]; rfl, fun after' hcloses => ?_⟩
    simpa [takeRegex] using hread after' hcloses
  | case5 inClass rest _ _ _ ih =>
    obtain ⟨w, hw, hread⟩ := ih h
    refine ⟨']' :: w, by rw [hw]; rfl, fun after' hcloses => ?_⟩
    simpa [takeRegex] using hread after' hcloses
  | case6 inClass c rest hline hback hopen hclose hend =>
    simp only [Except.ok.injEq] at h
    subst h
    refine ⟨c :: rest.takeWhile isIdContinue, by simp, fun after' hcloses => ?_⟩
    have hflags := word_local rest hcloses
    rw [List.cons_append, takeRegex, if_neg hopen, if_neg hclose, if_pos hend, hflags.2]
    · exact hline
    · rintro e rest' rfl -
      simp at hend
  | case7 inClass c rest hline hback hopen hclose hend ih =>
    obtain ⟨w, hw, hread⟩ := ih h
    refine ⟨c :: w, by rw [hw]; rfl, fun after' hcloses => ?_⟩
    rw [List.cons_append, takeRegex, if_neg hopen, if_neg hclose, if_neg hend]
    · exact hread after' hcloses
    · exact hline
    · rintro e rest' rfl -
      cases rest with
      | nil => simp [takeRegex] at h
      | cons e' rest => exact hback e' rest rfl rfl

/-- A number is read up to the first character that cannot be in it. -/
theorem dropNumber_local {signs : Bool} {previous : Char} {s after : List Char}
    (h : dropNumber signs previous s = after) :
    ∃ w, s = w ++ after ∧
      ∀ after', Closes after after' → dropNumber signs previous (w ++ after') = after' := by
  fun_induction dropNumber signs previous s with
  | case1 previous =>
    subst h
    exact ⟨[], rfl, fun after' hcloses => hcloses.number signs previous rfl⟩
  | case2 previous c rest exponentSign hc ih =>
    obtain ⟨w, hw, hread⟩ := ih h
    refine ⟨c :: w, by rw [hw]; rfl, fun after' hcloses => ?_⟩
    rw [List.cons_append, dropNumber, if_pos hc]
    exact hread after' hcloses
  | case3 previous c rest exponentSign hc =>
    subst h
    exact ⟨[], rfl, fun after' hcloses => hcloses.number signs previous (by rw [dropNumber, if_neg hc])⟩

/-! ### Tokens -/

/-- The kind of a token that could be read. -/
def Kind.Readable (kind : Kind) : Prop := ∀ reason, kind ≠ .invalid reason

theorem templateToken_local {braces braces' : List Bool} {s after : List Char} {kind : Kind}
    (hkind : kind.Readable) (h : templateToken braces s = (kind, after, braces')) :
    ∃ w, s = w ++ after ∧ ∀ after', templateToken braces (w ++ after') = (kind, after', braces') := by
  unfold templateToken at h
  split at h
  · next rest hpiece =>
    simp only [Prod.mk.injEq] at h
    obtain ⟨rfl, rfl, rfl⟩ := h
    obtain ⟨w, hw, hread⟩ := takeTemplate_local hpiece
    exact ⟨w, hw, fun after' => by simp only [templateToken, hread]⟩
  · next rest hpiece =>
    simp only [Prod.mk.injEq] at h
    obtain ⟨rfl, rfl, rfl⟩ := h
    obtain ⟨w, hw, hread⟩ := takeTemplate_local hpiece
    exact ⟨w, hw, fun after' => by simp only [templateToken, hread]⟩
  · simp only [Prod.mk.injEq] at h
    exact absurd h.1.symm (hkind .template)

theorem takeText_readable {quote : Char} {s done after : List Char} {kind : Kind}
    (hkind : kind.Readable) (h : takeText quote s done = (kind, after)) :
    ∃ value, kind = .text value := by
  fun_induction takeText quote s done with
  | case1 | case2 | case4 =>
    simp only [Prod.mk.injEq] at h
    exact absurd h.1.symm (hkind .text)
  | case3 | case5 =>
    simp only [Prod.mk.injEq] at h
    exact ⟨_, h.1.symm⟩
  | case6 rest done _ _ ih | case7 e rest done _ _ _ ih | case8 c e rest done _ _ _ ih => exact ih h

theorem textToken_local {quote : Char} (hn : quote ≠ '\n') {s after : List Char} {kind : Kind}
    (hkind : kind.Readable) (h : takeText quote s [] = (kind, after)) :
    ∃ w, s = w ++ after ∧ ∀ after', takeText quote (w ++ after') [] = (kind, after') := by
  obtain ⟨value, rfl⟩ := takeText_readable hkind h
  exact takeText_local hn h

section Token

variable {signs afterExpression : Bool} {braces braces' : List Bool} {rest after : List Char}
  {kind : Kind}

/-- A dot begins a number exactly if a digit follows. -/
theorem scanToken_dot_local (h : scanToken signs braces afterExpression '.' rest = (kind, after, braces')) :
    ∃ w, rest = w ++ after ∧ ∀ after', Closes after after' →
      scanToken signs braces afterExpression '.' (w ++ after') = (kind, after', braces') := by
  simp only [scanToken] at h
  split at h
  · next hdigit =>
    simp only [Prod.mk.injEq] at h
    obtain ⟨rfl, hafter, rfl⟩ := h
    -- the digit belongs to the number
    obtain ⟨d, digits, rfl⟩ : ∃ d digits, rest = d :: digits := by
      cases rest with
      | nil => cases hdigit
      | cons d digits => exact ⟨d, digits, rfl⟩
    have hd : d.isDigit = true := by simpa [digitNext] using hdigit
    rw [dropNumber, if_pos (by simp [Char.isAlphanum, hd])] at hafter
    obtain ⟨w, hw, hread⟩ := dropNumber_local hafter
    refine ⟨d :: w, by rw [hw]; rfl, fun after' hcloses => ?_⟩
    have hnumber : dropNumber signs '.' (d :: (w ++ after')) = after' := by
      rw [dropNumber, if_pos (by simp [Char.isAlphanum, hd]), hread after' hcloses]
    simp only [List.cons_append, scanToken, digitNext, List.head?_cons, Option.any_some, hd, if_true, hnumber]
  · next hdigit =>
    simp only [Prod.mk.injEq] at h
    obtain ⟨rfl, rfl, rfl⟩ := h
    refine ⟨[], rfl, fun after' hcloses => ?_⟩
    have hdigit' := hcloses.digit (by simpa using hdigit)
    simp only [List.nil_append, scanToken, hdigit', Bool.false_eq_true, if_false]

/-- A question mark goes with a dot exactly if no digit follows the dot. -/
theorem scanToken_question_local
    (h : scanToken signs braces afterExpression '?' rest = (kind, after, braces')) :
    ∃ w, rest = w ++ after ∧ ∀ after', Closes after after' →
      scanToken signs braces afterExpression '?' (w ++ after') = (kind, after', braces') := by
  simp only [scanToken] at h
  split at h
  · next hdot =>
    simp only [Prod.mk.injEq] at h
    obtain ⟨rfl, rfl, rfl⟩ := h
    simp only [Bool.and_eq_true, decide_eq_true_eq, Bool.not_eq_true'] at hdot
    refine ⟨['.'], (List.eq_cons_of_mem_head? hdot.1), fun after' hcloses => ?_⟩
    simp [scanToken, hcloses.digit hdot.2]
  · next hdot =>
    simp only [Prod.mk.injEq] at h
    obtain ⟨rfl, rfl, rfl⟩ := h
    refine ⟨[], rfl, fun after' hcloses => ?_⟩
    have hdot' : ¬(decide (after'.head? = some '.') && !digitNext after'.tail) = true := by
      simp only [Bool.and_eq_true, decide_eq_true_eq, Bool.not_eq_true'] at hdot ⊢
      exact fun h => hdot (hcloses.dot h.1 h.2)
    simp only [List.nil_append, scanToken, if_neg hdot']

/-- The characters that tell by themselves what kind of token begins. -/
def marks : List Char := ['(', ')', '[', ']', '\x7b', '\x7d', ',', '.', '?', '\x22', '\x27', '\x60']

theorem scanToken_other {c : Char} (hc : c ∉ marks) (s : List Char) :
    scanToken signs braces afterExpression c s =
      if c = '/' && !afterExpression then
        match takeRegex false s with
        | .ok after => (.regex, after, braces)
        | .error after => (.invalid .regex, after, braces)
      else if c.isDigit then (.number, dropNumber signs c s, braces)
      else if isIdStart c then
        (.identifier (String.ofList (c :: s.takeWhile isIdContinue)), s.dropWhile isIdContinue, braces)
      else (.operator c, s, braces) := by
  unfold scanToken
  split <;> first | rfl | exact absurd (by decide) hc

theorem scanToken_other_local {c : Char} (hc : c ∉ marks) (hkind : kind.Readable)
    (h : scanToken signs braces afterExpression c rest = (kind, after, braces')) :
    ∃ w, rest = w ++ after ∧ ∀ after', Closes after after' →
      scanToken signs braces afterExpression c (w ++ after') = (kind, after', braces') := by
  rw [scanToken_other hc] at h
  split at h
  · next hslash =>
    split at h
    · next flags hregex =>
      simp only [Prod.mk.injEq] at h
      obtain ⟨rfl, rfl, rfl⟩ := h
      obtain ⟨w, hw, hread⟩ := takeRegex_local hregex
      refine ⟨w, hw, fun after' hcloses => ?_⟩
      rw [scanToken_other hc, if_pos hslash, hread after' hcloses]
    · next flags hregex =>
      simp only [Prod.mk.injEq] at h
      exact absurd h.1.symm (hkind .regex)
  · next hslash =>
    split at h
    · next hdigit =>
      simp only [Prod.mk.injEq] at h
      obtain ⟨rfl, hafter, rfl⟩ := h
      obtain ⟨w, hw, hread⟩ := dropNumber_local hafter
      refine ⟨w, hw, fun after' hcloses => ?_⟩
      rw [scanToken_other hc, if_neg hslash, if_pos hdigit, hread after' hcloses]
    · next hdigit =>
      split at h
      · next hstart =>
        simp only [Prod.mk.injEq] at h
        obtain ⟨rfl, rfl, rfl⟩ := h
        refine ⟨rest.takeWhile isIdContinue, by simp, fun after' hcloses => ?_⟩
        have hword := word_local rest hcloses
        rw [scanToken_other hc, if_neg hslash, if_neg hdigit, if_pos hstart, hword.1, hword.2]
      · next hstart =>
        simp only [Prod.mk.injEq] at h
        obtain ⟨rfl, rfl, rfl⟩ := h
        refine ⟨[], rfl, fun after' _ => ?_⟩
        rw [List.nil_append, scanToken_other hc, if_neg hslash, if_neg hdigit, if_neg hstart]

/-- A token is read the same in front of every text before which it ends. -/
theorem scanToken_local {c : Char} (hkind : kind.Readable)
    (h : scanToken signs braces afterExpression c rest = (kind, after, braces')) :
    ∃ w, rest = w ++ after ∧ ∀ after', Closes after after' →
      scanToken signs braces afterExpression c (w ++ after') = (kind, after', braces') := by
  have hscan := h
  unfold scanToken at h
  split at h
  case h_6 =>
    split at h
    · next htemplate =>
      obtain ⟨w, hw, hread⟩ := templateToken_local hkind h
      exact ⟨w, hw, fun after' _ => by simp only [scanToken, if_pos htemplate, hread]⟩
    · next htemplate =>
      simp only [Prod.mk.injEq] at h
      obtain ⟨rfl, rfl, rfl⟩ := h
      exact ⟨[], rfl, fun after' _ => by simp only [scanToken, if_neg htemplate, List.nil_append]⟩
  case h_8 => exact scanToken_dot_local hscan
  case h_9 => exact scanToken_question_local hscan
  case h_10 | h_11 =>
    simp only [Prod.mk.injEq] at h
    obtain ⟨hk, ha, rfl⟩ := h
    obtain ⟨w, hw, hread⟩ := textToken_local (by decide) hkind (Prod.ext hk ha)
    exact ⟨w, hw, fun after' _ => by simp only [scanToken, hread]⟩
  case h_12 =>
    obtain ⟨w, hw, hread⟩ := templateToken_local hkind h
    exact ⟨w, hw, fun after' _ => by simp only [scanToken, hread]⟩
  case h_13 =>
    refine scanToken_other_local ?_ hkind hscan
    simp only [marks, List.mem_cons, List.not_mem_nil, or_false, not_or]
    refine ⟨?_, ?_, ?_, ?_, ?_, ?_, ?_, ?_, ?_, ?_, ?_, ?_⟩ <;> assumption
  all_goals
    simp only [Prod.mk.injEq] at h
    obtain ⟨rfl, rfl, rfl⟩ := h
    exact ⟨[], rfl, fun after' _ => rfl⟩

theorem scanToken_closes {c : Char} {w after' : List Char} (hkind : kind.Readable)
    (h : scanToken signs braces afterExpression c (w ++ after) = (kind, after, braces'))
    (hcloses : Closes after after') :
    scanToken signs braces afterExpression c (w ++ after') = (kind, after', braces') := by
  obtain ⟨w', hw, hread⟩ := scanToken_local hkind h
  obtain rfl : w = w' := List.append_cancel_right hw
  exact hread after' hcloses

end Token

/-! ### Blanks and comments -/

theorem skipComment?_local {s after : List Char} (h : skipComment? s = some after) :
    ∃ w, s = w ++ after ∧ ∀ after', skipComment? (w ++ after') = some after' := by
  fun_induction skipComment? s with
  | case1 rest =>
    simp only [Option.some.injEq] at h
    subst h
    exact ⟨['*', '/'], rfl, fun after' => rfl⟩
  | case2 c rest hend ih =>
    obtain ⟨w, hw, hread⟩ := ih h
    refine ⟨c :: w, by rw [hw]; rfl, fun after' => ?_⟩
    -- the comment does not end here, so the character after `c` belongs to it
    cases w with
    | nil => simpa [skipComment?] using hread []
    | cons e w =>
      rw [← hread after', List.cons_append, skipComment?]
      rintro rest' rfl heq
      exact hend (w ++ after) rfl (by rw [hw, List.cons_append, (List.cons.inj heq).1])
  | case3 => simp at h

theorem skipLine_local (s : List Char) :
    ∃ line, s = line ++ skipLine s ∧ ∀ s', EndsLine (skipLine s) s' → skipLine (line ++ s') = s' :=
  ⟨s.takeWhile inLine, (List.takeWhile_append_dropWhile ..).symm,
    fun _ h => (takeWhile_local s (h (head?_dropWhile_any inLine s))).2⟩

/-- A character that can open a comment after a slash. -/
def opensComment (c : Char) : Bool := c == '/' || c == '*'

theorem skipBlanks_succ (fuel : Nat) (s : List Char) :
    skipBlanks (fuel + 1) s =
      match s with
      | '/' :: '/' :: rest => skipBlanks fuel (skipLine rest)
      | '/' :: '*' :: rest => (skipComment? rest).bind (skipBlanks fuel)
      | c :: rest => if isBlank c then skipBlanks fuel rest else some s
      | [] => some [] := rfl

theorem skipBlanks_cons (fuel : Nat) {c : Char} {rest : List Char}
    (h : c = '/' → rest.head?.any opensComment = false) :
    skipBlanks (fuel + 1) (c :: rest) =
      if isBlank c then skipBlanks fuel rest else some (c :: rest) := by
  rw [skipBlanks_succ]
  split
  · next rest' heq =>
    obtain ⟨rfl, rfl⟩ := List.cons.inj heq
    simp [opensComment] at h
  · next rest' heq =>
    obtain ⟨rfl, rfl⟩ := List.cons.inj heq
    simp [opensComment] at h
  · next c' rest' _ _ heq =>
    obtain ⟨rfl, rfl⟩ := List.cons.inj heq
    rfl
  · next heq => exact absurd heq (List.cons_ne_nil c rest)

theorem skipBlanks_stop {c : Char} {rest : List Char} (hblank : isBlank c = false)
    (hslash : c = '/' → rest.head?.any opensComment = false) (fuel : Nat) :
    skipBlanks fuel (c :: rest) = some (c :: rest) := by
  cases fuel with
  | zero => rfl
  | succ fuel => rw [skipBlanks_cons fuel hslash, if_neg (by simp [hblank])]

/-- The first character is no blank and opens no comment. -/
def Stops (s : List Char) : Prop :=
  ∀ c rest, s = c :: rest → isBlank c = false ∧ (c = '/' → rest.head?.any opensComment = false)

theorem Stops.skipBlanks_alike {s s' : List Char} (hs : Stops s) (hne : s ≠ []) (h : Alike s s') (fuel : Nat) :
    skipBlanks fuel s' = some s' := by
  cases h with
  | refl =>
    cases s with
    | nil => exact absurd rfl hne
    | cons c rest => exact skipBlanks_stop (hs c rest rfl).1 (hs c rest rfl).2 fuel
  | cons c h =>
    obtain ⟨hblank, hslash⟩ := hs c _ rfl
    refine skipBlanks_stop hblank (fun hc => ?_) fuel
    rw [h.head?_any (p := opensComment) rfl rfl rfl]
    exact hslash hc
  | callee s s' => exact skipBlanks_stop (by decide) (by simp) fuel
  | literal hq s s' => exact skipBlanks_stop (by decide) (by simp) fuel
  | ended s' => exact absurd rfl hne

/-- Blanks and comments are skipped up to what is neither, and the same ones in front of every text before which
a line ends. -/
theorem skipBlanks_skips {fuel : Nat} {s after : List Char} (hfuel : s.length < fuel)
    (h : skipBlanks fuel s = some after) :
    Stops after ∧ ∃ w, s = w ++ after ∧
      ∀ after' fuel', EndsLine after after' → (w ++ after').length < fuel' →
        ∃ fuel'', after'.length < fuel'' ∧ skipBlanks fuel' (w ++ after') = skipBlanks fuel'' after' := by
  induction fuel generalizing s with
  | zero => omega
  | succ fuel ih =>
    rw [skipBlanks_succ] at h
    split at h
    · next rest =>
      have hshort : (skipLine rest).length ≤ rest.length := (List.dropWhile_sublist _).length_le
      obtain ⟨hstops, w, hw, hread⟩ := ih (by simp only [List.length_cons] at hfuel; omega) h
      obtain ⟨line, hline, hskip⟩ := skipLine_local rest
      rw [hw] at hline hskip
      refine ⟨hstops, '/' :: '/' :: line ++ w, by simp [hline], fun after' fuel' hends hfuel' => ?_⟩
      simp only [List.cons_append, List.append_assoc, List.length_cons, List.length_append] at hfuel'
      obtain ⟨fuel', rfl⟩ := Nat.exists_eq_add_of_lt (show 0 < fuel' by omega)
      simp only [List.cons_append, List.append_assoc, skipBlanks_succ, hskip _ (hends.append w)]
      exact hread after' _ hends (by simp only [List.length_append]; omega)
    · next rest =>
      obtain ⟨behind, hcomment, hbehind⟩ := Option.bind_eq_some_iff.mp h
      obtain ⟨comment, rfl, hskip⟩ := skipComment?_local hcomment
      simp only [List.length_cons, List.length_append] at hfuel
      obtain ⟨hstops, w, rfl, hread⟩ := ih (by omega) hbehind
      refine ⟨hstops, '/' :: '*' :: comment ++ w, by simp, fun after' fuel' hends hfuel' => ?_⟩
      simp only [List.cons_append, List.append_assoc, List.length_cons, List.length_append] at hfuel'
      obtain ⟨fuel', rfl⟩ := Nat.exists_eq_add_of_lt (show 0 < fuel' by omega)
      simp only [List.cons_append, List.append_assoc, skipBlanks_succ, hskip, Option.bind_some]
      exact hread after' _ hends (by simp only [List.length_append]; omega)
    · next c rest hline hcomment =>
      split at h
      · next hblank =>
        obtain ⟨hstops, w, rfl, hread⟩ := ih (by simpa using hfuel) h
        refine ⟨hstops, c :: w, rfl, fun after' fuel' hends hfuel' => ?_⟩
        obtain ⟨fuel', rfl⟩ := Nat.exists_eq_add_of_lt (show 0 < fuel' by omega)
        have hslash : c ≠ '/' := by
          rintro rfl
          exact absurd hblank (by decide)
        rw [List.cons_append, skipBlanks_cons _ (fun hc => absurd hc hslash), if_pos hblank]
        exact hread after' _ hends (by simp only [List.length_cons, List.cons_append] at hfuel'; omega)
      · next hblank =>
        simp only [Option.some.injEq] at h
        subst h
        refine ⟨?_, [], rfl, fun after' fuel' _ hfuel' => ⟨fuel', hfuel', rfl⟩⟩
        rintro c' rest' heq
        obtain ⟨rfl, rfl⟩ := List.cons.inj heq
        refine ⟨by simpa using hblank, fun hc => ?_⟩
        cases rest with
        | nil => rfl
        | cons e rest =>
          have hslash : e ≠ '/' := fun he => hline rest hc (by rw [he])
          have hstar : e ≠ '*' := fun he => hcomment rest hc (by rw [he])
          simp [opensComment, hslash, hstar]
    · simp only [Option.some.injEq] at h
      subst h
      exact ⟨fun c rest heq => absurd heq (by simp), [], rfl, fun after' fuel' _ hfuel' => ⟨fuel', hfuel', rfl⟩⟩

/-- The fuel does not matter if it is enough. -/
theorem skipBlanks_fuel {fuel fuel' : Nat} {s : List Char} (hfuel : s.length < fuel) (hfuel' : s.length < fuel') :
    skipBlanks fuel s = skipBlanks fuel' s := by
  induction fuel generalizing s fuel' with
  | zero => omega
  | succ fuel ih =>
    obtain ⟨fuel', rfl⟩ := Nat.exists_eq_add_of_lt (show 0 < fuel' by omega)
    rw [Nat.zero_add] at hfuel' ⊢
    rw [skipBlanks_succ, skipBlanks_succ]
    split
    · next rest =>
      have hshort : (skipLine rest).length ≤ rest.length := (List.dropWhile_sublist _).length_le
      simp only [List.length_cons] at hfuel hfuel'
      exact ih (by omega) (by omega)
    · next rest =>
      cases hcomment : skipComment? rest with
      | none => rfl
      | some behind =>
        obtain ⟨comment, rfl, -⟩ := skipComment?_local hcomment
        simp only [List.length_cons, List.length_append] at hfuel hfuel'
        exact ih (by omega) (by omega)
    · next c rest _ _ =>
      simp only [List.length_cons] at hfuel hfuel'
      rw [show skipBlanks fuel rest = skipBlanks fuel' rest from ih (by omega) (by omega)]
    · rfl

end ScriptVault.Script
