import ScriptVault.Proofs.Script.Lookahead
import ScriptVault.Script.Frame

/-!
# Literal — JSON string literals in a script

`JsonText` is the grammar of what stands between the quotes of a JSON string.  The scanner reads such a literal
as one token up to its closing quote (`takeText_json`), with the text that `unescaped` tells; for a text
without rare control characters that is the text which was encoded (`unescaped_encode`).
-/

namespace ScriptVault.Script

open Text.Quoted

/-- A digit of base sixteen, in either case. -/
def IsHex (c : Char) : Prop := c.isDigit ∨ ('a' ≤ c ∧ c ≤ 'f') ∨ ('A' ≤ c ∧ c ≤ 'F')

instance (c : Char) : Decidable (IsHex c) := inferInstanceAs (Decidable (_ ∨ _ ∨ _))

/-- The letters that make an escape with the backslash before them. -/
def escapeLetters : List Char := ['\x22', '\\', '/', 'b', 'f', 'n', 'r', 't']

/-- What may stand between the quotes of a JSON string. -/
inductive JsonText : List Char → Prop
  | nil : JsonText []
  | plain {c : Char} {s : List Char} (hcontrol : 32 ≤ c.toNat) (hquote : c ≠ '\x22')
      (hback : c ≠ '\\') (h : JsonText s) : JsonText (c :: s)
  | escape {c : Char} {s : List Char} (hc : c ∈ escapeLetters) (h : JsonText s) :
      JsonText ('\\' :: c :: s)
  | unicode {a b c d : Char} {s : List Char} (hdigits : ∀ x ∈ [a, b, c, d], IsHex x)
      (h : JsonText s) : JsonText ('\\' :: 'u' :: a :: b :: c :: d :: s)

namespace JsonText

theorem append {s t : List Char} (hs : JsonText s) (ht : JsonText t) : JsonText (s ++ t) := by
  induction hs with
  | nil => exact ht
  | plain hcontrol hquote hback _ ih => exact .plain hcontrol hquote hback ih
  | escape hc _ ih => exact .escape hc ih
  | unicode hdigits _ ih => exact .unicode hdigits ih

end JsonText

/-! ### What is encoded is such a text -/

theorem shortEscape?_mem {c letter : Char} (h : shortEscape? c = some letter) :
    letter ∈ escapeLetters := by
  unfold shortEscape? at h
  split at h <;> cases h <;> decide

theorem hexDigit_isHex {n : Nat} (h : n < 16) : IsHex (hexDigit n) := by
  have hdigits : ∀ n : Fin 16, IsHex (hexDigit n) := by decide
  exact hdigits ⟨n, h⟩

theorem encodeChar_json (c : Char) : JsonText (encodeChar c) := by
  unfold encodeChar
  split
  · next letter h => exact .escape (shortEscape?_mem h) .nil
  · next hplain =>
    split
    · next hcontrol =>
      refine .unicode (fun x hx => ?_) .nil
      simp only [List.mem_cons, List.not_mem_nil, or_false] at hx
      rcases hx with rfl | rfl | rfl | rfl
      · decide
      · decide
      · exact hexDigit_isHex (by omega)
      · exact hexDigit_isHex (by omega)
    · next hcontrol =>
      refine .plain (by omega) ?_ ?_ .nil
      · rintro rfl
        exact absurd hplain (by decide)
      · rintro rfl
        exact absurd hplain (by decide)

theorem encode_json (s : List Char) : JsonText (s.flatMap encodeChar) := by
  induction s with
  | nil => exact .nil
  | cons c s ih => exact (encodeChar_json c).append ih

/-! ### What the scanner reads -/

/-- The text that the scanner reads between two quotes. -/
def unescaped : List Char → List Char
  | '\\' :: e :: s => escaped e :: unescaped s
  | c :: s => c :: unescaped s
  | [] => []

/-- A character that stands for itself in every string literal. -/
structure Bare (c : Char) : Prop where
  line : c ≠ '\n'
  quote : c ≠ '\x22'
  back : c ≠ '\\'

theorem takeText_bare {c : Char} (hc : Bare c) (s rest done : List Char) :
    takeText '\x22' (c :: (s ++ '\x22' :: rest)) done =
      takeText '\x22' (s ++ '\x22' :: rest) (c :: done) := by
  have hline := hc.line
  cases s with
  | nil => simp [takeText, hc.quote, hc.back]
  | cons e s => simp [takeText, hc.quote, hc.back]

theorem unescaped_bare {c : Char} (hc : Bare c) (s : List Char) :
    unescaped (c :: s) = c :: unescaped s := by
  rw [unescaped]
  exact fun e s' h _ => hc.back h

theorem IsHex.bare {c : Char} (h : IsHex c) : Bare c := by
  constructor <;> (rintro rfl; exact absurd h (by decide))

theorem takeText_escape {c : Char} (hc : c ≠ '\n') (s done : List Char) :
    takeText '\x22' ('\\' :: c :: s) done = takeText '\x22' s (escaped c :: done) := by
  simp [takeText, hc]

/-- A JSON string is one token, up to its closing quote. -/
theorem takeText_json {s : List Char} (h : JsonText s) (rest done : List Char) :
    takeText '\x22' (s ++ '\x22' :: rest) done =
      (.text (String.ofList (done.reverse ++ unescaped s)), rest) := by
  induction h generalizing done with
  | nil => rw [List.nil_append, takeText_quote (by decide), unescaped, List.append_nil]
  | @plain c s hcontrol hquote hback _ ih =>
    have hline : c ≠ '\n' := by
      rintro rfl
      exact absurd hcontrol (by decide)
    have hc : Bare c := ⟨hline, hquote, hback⟩
    rw [List.cons_append, takeText_bare hc, ih, unescaped_bare hc]
    simp
  | @escape c s hc _ ih =>
    have hline : c ≠ '\n' := by
      rintro rfl
      exact absurd hc (by decide)
    rw [List.cons_append, List.cons_append, takeText_escape hline, ih, unescaped]
    simp
  | @unicode a b c d s hdigits _ ih =>
    have ha := (hdigits a (by simp)).bare
    have hb := (hdigits b (by simp)).bare
    have hc := (hdigits c (by simp)).bare
    have hd := (hdigits d (by simp)).bare
    have hdigits' : takeText '\x22' (a :: b :: c :: d :: s ++ '\x22' :: rest) (escaped 'u' :: done) =
        takeText '\x22' (s ++ '\x22' :: rest) (d :: c :: b :: a :: escaped 'u' :: done) := by
      rw [List.cons_append, takeText_bare ha (b :: c :: d :: s), List.cons_append,
        takeText_bare hb (c :: d :: s), List.cons_append, takeText_bare hc (d :: s), List.cons_append,
        takeText_bare hd]
    rw [List.cons_append, List.cons_append, takeText_escape (by decide), hdigits', ih, unescaped,
      unescaped_bare ha, unescaped_bare hb, unescaped_bare hc, unescaped_bare hd]
    simp

/-- A character that the scanner reads back as it was encoded. -/
def readsBack (c : Char) : Bool := 32 ≤ c.toNat || c == '\n' || c == '\r' || c == '\t'

theorem unescaped_encodeChar {c : Char} (h : readsBack c) (s : List Char) :
    unescaped (encodeChar c ++ s) = c :: unescaped s := by
  unfold encodeChar
  split
  · next letter hletter =>
    have hc : c = Char.ofNat c.toNat := (Char.ofNat_toNat c).symm
    unfold shortEscape? at hletter
    split at hletter <;> cases hletter
    all_goals
      next hn =>
      rw [hn] at hc
      subst hc
      first | rfl | exact absurd h (by decide)
  · next hplain =>
    split
    · next hcontrol =>
      simp only [readsBack, Bool.or_eq_true, decide_eq_true_eq, beq_iff_eq] at h
      rcases h with ((h | rfl) | rfl) | rfl
      · omega
      all_goals exact absurd hplain (by decide)
    · next hcontrol =>
      rw [List.singleton_append, unescaped]
      rintro e s' rfl -
      exact absurd hplain (by decide)

theorem unescaped_encode {s : List Char} (h : ∀ c ∈ s, readsBack c) :
    unescaped (s.flatMap encodeChar) = s := by
  induction s with
  | nil => rfl
  | cons c s ih =>
    rw [List.flatMap_cons, unescaped_encodeChar (h c (List.mem_cons_self ..)),
      ih fun d hd => h d (List.mem_cons_of_mem c hd)]

end ScriptVault.Script
