import ScriptVault.Proofs.Script.Lexeme
import ScriptVault.Proofs.Script.Literal

/-!
# Exchange — other lexemes for a callee and for a literal

The identifier `require` may be exchanged for `self` and a string between brackets, and a string literal for
another one: the scanner goes on as before.  The steps are `Reads.callee` and `Reads.literal`, the run is
`Reads.exchanged`.
-/

namespace ScriptVault.Script

open Text (byteLength isBlank isIdContinue isIdStart)

/-! ### Which characters begin an identifier or a string -/

theorem templateToken_kind (braces : List Bool) (s : List Char) :
    (templateToken braces s).1 = .template ∨ (templateToken braces s).1 = .invalid .template := by
  unfold templateToken
  split
  · exact .inl rfl
  · exact .inl rfl
  · exact .inr rfl

theorem takeText_kind (quote : Char) (s done : List Char) :
    (takeText quote s done).1 = .invalid .text ∨ ∃ value, (takeText quote s done).1 = .text value := by
  fun_induction takeText quote s done with
  | case1 | case2 | case4 => exact .inl rfl
  | case3 | case5 => exact .inr ⟨_, rfl⟩
  | case6 rest done _ _ ih | case7 e rest done _ _ _ ih | case8 c e rest done _ _ _ ih => exact ih

section Token

variable {signs first afterExpression : Bool} {braces braces' : List Bool} {c : Char}
  {rest after : List Char}

theorem scanToken_eq_identifier {name : String}
    (h : scanToken signs braces afterExpression c rest = (.identifier name, after, braces')) :
    name = String.ofList (c :: rest.takeWhile isIdContinue) ∧ after = rest.dropWhile isIdContinue ∧
      braces' = braces := by
  have htemplate : ∀ opened s, (templateToken opened s).1 ≠ .identifier name := by
    intro opened s heq
    rcases templateToken_kind opened s with hkind | hkind <;> simp [hkind] at heq
  have htext : ∀ quote s, (takeText quote s []).1 ≠ .identifier name := by
    intro quote s heq
    rcases takeText_kind quote s [] with hkind | ⟨value, hkind⟩ <;> simp [hkind] at heq
  unfold scanToken at h
  split at h
  case h_6 =>
    split at h
    · exact absurd (congrArg Prod.fst h) (htemplate _ _)
    · simp at h
  case h_8 | h_9 => split at h <;> simp at h
  case h_10 | h_11 => exact absurd (congrArg Prod.fst h) (htext _ _)
  case h_12 => exact absurd (congrArg Prod.fst h) (htemplate _ _)
  case h_13 =>
    split at h
    · split at h <;> simp at h
    · split at h
      · simp at h
      · split at h
        · simp only [Prod.mk.injEq, Kind.identifier.injEq] at h
          exact ⟨h.1.symm, h.2.1.symm, h.2.2.symm⟩
        · simp at h
  all_goals simp at h

theorem scanToken_eq_text {value : String}
    (h : scanToken signs braces afterExpression c rest = (.text value, after, braces')) :
    (c = '\x22' ∨ c = '\x27') ∧ braces' = braces := by
  have htemplate : ∀ opened s, (templateToken opened s).1 ≠ .text value := by
    intro opened s heq
    rcases templateToken_kind opened s with hkind | hkind <;> simp [hkind] at heq
  unfold scanToken at h
  split at h
  case h_6 =>
    split at h
    · exact absurd (congrArg Prod.fst h) (htemplate _ _)
    · simp at h
  case h_8 | h_9 => split at h <;> simp at h
  case h_10 => exact ⟨.inl rfl, (congrArg (·.2.2) h).symm⟩
  case h_11 => exact ⟨.inr rfl, (congrArg (·.2.2) h).symm⟩
  case h_12 => exact absurd (congrArg Prod.fst h) (htemplate _ _)
  case h_13 =>
    split at h
    · split at h <;> simp at h
    · split at h
      · simp at h
      · split at h <;> simp at h
  all_goals simp at h

end Token

/-! ### The lexemes that are put in -/

/-- A string literal after a gap. -/
def stringLexeme (gap body : List Char) : Lexeme :=
  ⟨gap, '\x22' :: (body ++ ['\x22']), .text (String.ofList (unescaped body))⟩

/-- The lexemes of `self` with a string between brackets. -/
def calleeLexemes (gap body : List Char) : List Lexeme :=
  [⟨gap, ['s', 'e', 'l', 'f'], .identifier "self"⟩, ⟨[], ['['], .bracketOpen⟩, stringLexeme [] body,
    ⟨[], [']'], .bracketClose⟩]

/-- Some lexemes where callees and literals were exchanged. -/
inductive Exchanged (body : List Char) : List Lexeme → List Lexeme → Prop
  | nil : Exchanged body [] []
  | keep {x : Lexeme} {xs xs' : List Lexeme} (h : Exchanged body xs xs') :
      Exchanged body (x :: xs) (x :: xs')
  | callee {gap text : List Char} {xs xs' : List Lexeme} (h : Exchanged body xs xs') :
      Exchanged body (⟨gap, text, .identifier "require"⟩ :: xs) (calleeLexemes gap body ++ xs')
  | literal {gap text new : List Char} {value : String} {xs xs' : List Lexeme} (hnew : JsonText new)
      (h : Exchanged body xs xs') :
      Exchanged body (⟨gap, text, .text value⟩ :: xs) (stringLexeme gap new :: xs')

section Step

variable {signs first afterExpression : Bool} {braces : List Bool} {gap body tail tail' : List Char}
  {xs xs' : List Lexeme}

theorem ahead?_false_eq {c : Char} {s : List Char} (hblank : isBlank c = false) (hc : c ≠ '/') :
    ahead? false (c :: s) = some (c :: s) := by
  simp only [ahead?, Bool.false_and, Bool.false_eq_true, if_false]
  exact skipBlanks_stop hblank (fun h => absurd h hc) _

theorem scanToken_self (s : List Char) :
    scanToken signs braces afterExpression 's' (['e', 'l', 'f'] ++ '[' :: s) =
      (.identifier "self", '[' :: s, braces) := by
  have hword : ∀ c ∈ ['e', 'l', 'f'], isIdContinue c = true := by
    intro c hc
    simp only [List.mem_cons, List.not_mem_nil, or_false] at hc
    rcases hc with rfl | rfl | rfl <;> rfl
  have hstop : isIdContinue '[' = false := by decide
  rw [scanToken_other (by decide), if_neg (by simp), if_neg (by decide), if_pos (by decide),
    List.takeWhile_append_of_pos hword, List.dropWhile_append_of_pos hword,
    List.takeWhile_cons_of_neg (by simp [hstop]), List.dropWhile_cons_of_neg (by simp [hstop])]
  rfl

/-- A string literal is read as one token wherever one token may begin with its quote. -/
theorem Reads.literal (hbody : JsonText body)
    (hgap : ahead? first (gap ++ '\x22' :: (body ++ ['\x22'] ++ spell xs tail)) =
      some ('\x22' :: (body ++ ['\x22'] ++ spell xs tail)))
    (hrest : Reads signs false braces true xs tail) :
    Reads signs first braces afterExpression (stringLexeme gap body :: xs) tail := by
  refine .cons (by simp [Kind.Readable]) hgap ?_ hrest
  simp only [scanToken, List.append_assoc, List.singleton_append, takeText_json hbody]
  rfl

/-- The four tokens of a callee are read wherever one token may begin with `s`. -/
theorem Reads.callee (hbody : JsonText body)
    (hgap : ∀ s, ahead? first (gap ++ 's' :: s) = some ('s' :: s))
    (hrest : Reads signs false braces true xs tail) :
    Reads signs first braces afterExpression (calleeLexemes gap body ++ xs) tail := by
  refine .cons (by simp [Kind.Readable]) (hgap _) ?_ (.cons (by simp [Kind.Readable]) ?_ rfl
    (.literal hbody ?_ (.cons (by simp [Kind.Readable]) ?_ rfl hrest)))
  · exact scanToken_self _
  · exact ahead?_false_eq (by decide) (by decide)
  · exact ahead?_false_eq (by decide) (by decide)
  · exact ahead?_false_eq (by decide) (by decide)

/-- The scanner reads what was exchanged as it read what stood there before. -/
theorem Reads.exchanged (hbody : JsonText body)
    (h : Reads signs first braces afterExpression xs tail) (hxs : Exchanged body xs xs') :
    Reads signs first braces afterExpression xs' tail ∧ Alike (spell xs tail) (spell xs' tail) := by
  induction h generalizing xs' with
  | nil h =>
    cases hxs
    exact ⟨.nil h, .refl _⟩
  | @cons first braces braces' afterExpression gap w c kind xs tail hkind hgap hscan hrest ih =>
    cases hxs with
    | keep h =>
      obtain ⟨hreads, hlike⟩ := ih h
      have hlike' := (hlike.append w).cons c
      refine ⟨.cons hkind (ahead?_alike hgap (by simp) hlike') (scanToken_closes hkind hscan hlike.closes) hreads, ?_⟩
      exact hlike'.append gap
    | callee h =>
      obtain ⟨hreads, -⟩ := ih h
      obtain ⟨hname, hafter, rfl⟩ := scanToken_eq_identifier hscan
      obtain rfl : c = 'r' := by
        have hword := congrArg String.toList hname
        simp only [String.toList_ofList] at hword
        exact (List.cons.inj hword).1.symm
      refine ⟨.callee hbody (fun s => ahead?_alike hgap (by simp) (.callee ..)) hreads, ?_⟩
      exact (Alike.callee _ _).append gap
    | literal hnew h =>
      obtain ⟨hreads, -⟩ := ih h
      obtain ⟨hquote, rfl⟩ := scanToken_eq_text hscan
      refine ⟨.literal hnew (ahead?_alike hgap (by simp) (.literal hquote ..)) hreads, ?_⟩
      exact (Alike.literal hquote _ _).append gap

end Step

end ScriptVault.Script
