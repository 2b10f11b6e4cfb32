import ScriptVault.Proofs.Script.ModuleOnly

/-!
# Statements — two sources with a semicolon between them

A source that leaves no brace open goes on with a semicolon on a line of its own and then with another source.
The scanner reads the first as if it ended there and the second as if it began there (`Reads.statement`,
`Reads.inside`), but for one thing: whether the exponent of a number may have a sign is told by the beginning
of the whole.  So the calls of the whole are those of both, and the check accepts the whole exactly if it accepts
both.
-/

namespace ScriptVault.Script

open Text (byteLength)

/-! ### What is left open -/

/-- The exponents of a source may have signs: it does not begin as a hexadecimal number. -/
def signsExponents (source : List Char) : Bool := (Text.after? ['0', 'x'] source).isNone

/-- The cursor after the last token; after at most `fuel` of them. -/
def Cursor.last (signs : Bool) : Nat → Cursor → Cursor
  | 0, cur => cur
  | fuel + 1, cur =>
    match cur.next signs with
    | none => cur
    | some (_, cur') => Cursor.last signs fuel cur'

/-- The braces that are open at the end of a source. -/
def leftOpen (source : List Char) : List Bool :=
  ((Cursor.start source).last (signsExponents source) (source.length + 1)).braces

/-- The braces that are open after some lexemes. -/
def openAfter (signs : Bool) (tail : List Char) : List Bool → Bool → List Lexeme → List Bool
  | braces, _, [] => braces
  | braces, afterExpression, x :: xs =>
    match x.text with
    | [] => openAfter signs tail braces afterExpression xs
    | c :: w =>
      let (_, _, braces) := scanToken signs braces afterExpression c (w ++ spell xs tail)
      openAfter signs tail braces x.kind.endsExpression xs

section Reads

variable {signs first afterExpression : Bool} {braces braces' : List Bool} {xs ys : List Lexeme}
  {tail tail' : List Char}

theorem openAfter_cons {c : Char} {gap w : List Char} {kind : Kind}
    (hscan : scanToken signs braces afterExpression c (w ++ spell xs tail) = (kind, spell xs tail, braces')) :
    openAfter signs tail braces afterExpression (⟨gap, c :: w, kind⟩ :: xs) =
      openAfter signs tail braces' kind.endsExpression xs := by
  simp only [openAfter, hscan]

theorem Reads.last_braces (h : Reads signs first braces afterExpression xs tail) {pos fuel : Nat}
    (hfirst : first = decide (pos = 0)) (hfuel : (spell xs tail).length < fuel) :
    (Cursor.last signs fuel ⟨spell xs tail, pos, braces, afterExpression⟩).braces =
      openAfter signs tail braces afterExpression xs := by
  induction h generalizing pos fuel with
  | nil h =>
    subst hfirst
    cases fuel with
    | zero => omega
    | succ fuel => rw [Cursor.last, next_of_ahead?_nil signs h, openAfter]
  | @cons first braces braces' afterExpression gap w c kind xs tail hkind hgap hscan hrest ih =>
    subst hfirst
    cases fuel with
    | zero => omega
    | succ fuel =>
      have hpos := byteLength_pos c w
      rw [Cursor.last, next_eq rfl hgap hscan, openAfter_cons hscan]
      simp only [spell_cons, List.length_append, List.length_cons] at hfuel
      exact ih (decide_eq_false (by omega)).symm (by omega)

theorem ReadsAs.leftOpen_eq {source : List Char} (h : ReadsAs source xs tail) :
    leftOpen source = openAfter (signsExponents source) tail [] false xs := by
  obtain ⟨hsource, hreads⟩ := h
  have hlast := hreads.last_braces (decide_eq_true rfl).symm
    (show (spell xs tail).length < source.length + 1 by rw [← hsource]; omega)
  rwa [← hsource] at hlast

/-! ### Going on with a semicolon -/

/-- A semicolon after a line's end. -/
def semicolon (tail : List Char) : Lexeme := ⟨tail ++ ['\n'], [';'], .operator ';'⟩

theorem spell_append (xs ys : List Lexeme) (tail : List Char) :
    spell (xs ++ ys) tail = spell xs (spell ys tail) := by
  induction xs with
  | nil => rfl
  | cons x xs ih => simp [ih]

theorem spell_append_tail (xs : List Lexeme) (tail rest : List Char) :
    spell xs (tail ++ rest) = spell xs tail ++ rest := by
  induction xs with
  | nil => rfl
  | cons x xs ih => simp [ih]

theorem spell_statement (xs ys : List Lexeme) (tail tail' : List Char) :
    spell (xs ++ semicolon tail :: ys) tail' = spell xs tail ++ '\n' :: ';' :: spell ys tail' := by
  rw [spell_append, ← spell_append_tail]
  simp [semicolon]

/-- What is skipped to its end goes on behind the end of a line as if it began there. -/
theorem ahead?_newline (h : ahead? first tail = some []) (rest : List Char) :
    ahead? first (tail ++ '\n' :: rest) = ahead? false rest := by
  obtain ⟨-, gap, hgap, hskips⟩ := ahead?_skips h
  have hlike := Alike.ended rest
  obtain ⟨fuel, hfuel, hskip⟩ := hskips _ hlike.endsLine fun _ => hlike.names_eq gap
  obtain rfl : tail = gap := by simpa using hgap
  rw [hskip, skipBlanks_eq_ahead? hfuel, ahead?_blank (by decide)]

theorem scanToken_semicolon (rest : List Char) :
    scanToken signs braces afterExpression ';' rest = (.operator ';', rest, braces) := by
  rw [scanToken_other (by decide)]
  simp [show Text.isIdStart ';' = false by decide, show Char.isDigit ';' = false by decide]

/-- What is read to its end is read the same when it goes on with a semicolon on the next line. -/
theorem Reads.statement (h : Reads signs first braces afterExpression xs tail)
    (hys : Reads signs false (openAfter signs tail braces afterExpression xs) false ys tail') :
    Reads signs first braces afterExpression (xs ++ semicolon tail :: ys) tail' := by
  induction h with
  | nil h =>
    refine .cons (by simp [Kind.Readable]) ?_ (scanToken_semicolon _) hys
    have hahead := (ahead?_newline h (';' :: spell ys tail')).trans (ahead?_false_eq (by decide) (by decide))
    simpa using hahead
  | @cons first braces braces' afterExpression gap w c kind xs tail hkind hgap hscan hrest ih =>
    have hlike : Alike (spell xs tail) (spell (xs ++ semicolon tail :: ys) tail') := by
      rw [spell_statement]
      exact .extended ..
    rw [openAfter_cons hscan] at hys
    exact .cons hkind (ahead?_alike hgap (by simp) ((hlike.append w).cons c))
      (scanToken_closes hkind hscan hlike.closes) (ih hys)

/-- A source that does not name an interpreter is read the same where it does not begin. -/
theorem Reads.inside (h : Reads signs true braces afterExpression ys tail)
    (hfirst : Text.after? ['#', '!'] (spell ys tail) = none) : Reads signs false braces afterExpression ys tail := by
  have hahead {s t : List Char} (hs : Text.after? ['#', '!'] s = none) (ht : ahead? true s = some t) :
      ahead? false s = some t := by
    rw [← ht]
    simp only [ahead?, hs, Option.isSome_none, Bool.and_false]
  cases h with
  | nil h => exact .nil (hahead hfirst h)
  | cons hkind hgap hscan hrest => exact .cons hkind (hahead hfirst hgap) hscan hrest

theorem separates_newline : Separates ['\n'] := ⟨⟨_, _, rfl, by decide⟩, ahead?_blank (by decide)⟩

end Reads

/-! ### Exponents with signs -/

/-- The letter of an exponent stands directly before a sign. -/
def hasSignedExponent : List Char → Bool
  | e :: sign :: rest =>
    (e == 'e' || e == 'E') && (sign == '+' || sign == '-') || hasSignedExponent (sign :: rest)
  | _ => false

theorem hasSignedExponent_tail {c : Char} {s : List Char} (h : hasSignedExponent (c :: s) = false) :
    hasSignedExponent s = false := by
  cases s with
  | nil => rfl
  | cons d s => exact (Bool.or_eq_false_iff.1 h).2

theorem hasSignedExponent_of_append {w s : List Char} (h : hasSignedExponent (w ++ s) = false) :
    hasSignedExponent s = false := by
  induction w with
  | nil => exact h
  | cons c w ih => exact ih (hasSignedExponent_tail h)

/-- Where no sign follows an exponent's letter, it does not matter whether one may. -/
theorem dropNumber_signs {signs : Bool} {previous : Char} {s : List Char}
    (h : hasSignedExponent (previous :: s) = false) (signs' : Bool) :
    dropNumber signs' previous s = dropNumber signs previous s := by
  induction s generalizing previous with
  | nil => rfl
  | cons c s ih =>
    obtain ⟨hhere, hrest⟩ := Bool.or_eq_false_iff.1 h
    have hsign (signs : Bool) :
        ((c == '+' || c == '-') && (previous == 'e' || previous == 'E') && signs) = false := by
      rw [Bool.and_comm (c == '+' || c == '-'), hhere, Bool.false_and]
    simp only [dropNumber, hsign, Bool.or_false, ih hrest]

theorem scanToken_signs {signs afterExpression : Bool} {braces : List Bool} {c : Char} {s : List Char}
    (h : hasSignedExponent (c :: s) = false) (signs' : Bool) :
    scanToken signs' braces afterExpression c s = scanToken signs braces afterExpression c s := by
  unfold scanToken
  rw [dropNumber_signs h signs']

theorem Reads.signs {signs first afterExpression : Bool} {braces : List Bool} {xs : List Lexeme}
    {tail : List Char} (h : Reads signs first braces afterExpression xs tail)
    (hplain : hasSignedExponent (spell xs tail) = false) (signs' : Bool) :
    Reads signs' first braces afterExpression xs tail := by
  induction h with
  | nil h => exact .nil h
  | @cons first braces braces' afterExpression gap w c kind xs tail hkind hgap hscan _ ih =>
    have hhere : hasSignedExponent (c :: (w ++ spell xs tail)) = false := hasSignedExponent_of_append hplain
    refine .cons hkind hgap (by rw [scanToken_signs hhere signs', hscan]) (ih ?_)
    exact hasSignedExponent_of_append (hasSignedExponent_tail hhere)

/-! ### Calls -/

/-- A span some bytes further on. -/
def Span.shifted (n : Nat) (span : Span) : Span := ⟨span.start + n, span.stop + n⟩

/-- A call some bytes further on. -/
def Call.shifted (n : Nat) (call : Call) : Call :=
  ⟨call.specifier, call.callee.shifted n, call.argument.shifted n⟩

theorem not_beginsCall_of_callAt? {pos : Nat} {xs : List Lexeme} (h : ¬BeginsCall xs) :
    callAt? (tokensFrom pos xs) = none := by
  cases hcall : callAt? (tokensFrom pos xs) with
  | none => rfl
  | some call => exact absurd (beginsCall_of_callAt? hcall) h

/-- A token that stands elsewhere. -/
def Token.respan (f : Span → Span) (token : Token) : Token := ⟨token.kind, f token.span⟩

/-- A call that stands elsewhere. -/
def Call.respan (f : Span → Span) (call : Call) : Call := ⟨call.specifier, f call.callee, f call.argument⟩

theorem callAt?_respan (f : Span → Span) (ts : List Token) :
    callAt? (ts.map (Token.respan f)) = (callAt? ts).map (Call.respan f) := by
  unfold callAt?
  split
  · next rest heq =>
    simp only [List.map_eq_cons_iff, Token.respan, Token.mk.injEq] at heq
    obtain ⟨⟨_, _⟩, _, rfl, ⟨rfl, rfl⟩, ⟨_, _⟩, _, rfl, ⟨rfl, rfl⟩, ⟨_, _⟩, _, rfl, ⟨rfl, rfl⟩, ⟨_, _⟩, _, rfl, ⟨rfl, rfl⟩,
      rfl⟩ := heq
    rfl
  · next hnone =>
    split
    · exact absurd rfl (hnone _ _ _ _ _ _)
    · rfl

/-- Which tokens make calls does not depend on where they stand. -/
theorem callsFrom_respan (f : Span → Span) (hidden : Bool) (ts : List Token) :
    callsFrom hidden (ts.map (Token.respan f)) = (callsFrom hidden ts).map (Call.respan f) := by
  induction ts generalizing hidden with
  | nil => rfl
  | cons t ts ih =>
    have hhere := callAt?_respan f (t :: ts)
    rw [List.map_cons] at hhere ⊢
    simp only [callsFrom, hhere, List.map_append]
    rw [show (t.respan f).kind = t.kind from rfl, ih]
    cases hidden
    · simp [Option.toList_map]
    · rfl

theorem tokensFrom_shifted (n pos : Nat) (xs : List Lexeme) :
    tokensFrom (pos + n) xs = (tokensFrom pos xs).map (Token.respan (Span.shifted n)) := by
  induction xs generalizing pos with
  | nil => rfl
  | cons x xs ih =>
    rw [tokensFrom_cons, tokensFrom_cons, List.map_cons, Nat.add_right_comm pos n x.size, ih]
    simp only [Token.respan, Span.shifted, Nat.add_right_comm]

theorem callsFrom_shifted (n : Nat) (hidden : Bool) (pos : Nat) (xs : List Lexeme) :
    callsFrom hidden (tokensFrom (pos + n) xs) =
      (callsFrom hidden (tokensFrom pos xs)).map (Call.shifted n) := by
  rw [tokensFrom_shifted, callsFrom_respan]
  rfl

theorem callsFrom_cons (hidden : Bool) (pos : Nat) (x : Lexeme) (xs : List Lexeme) :
    callsFrom hidden (tokensFrom pos (x :: xs)) =
      (if hidden then none else callAt? (tokensFrom pos (x :: xs))).toList ++
        callsFrom x.kind.hidesCall (tokensFrom (pos + x.size) xs) := rfl

/-- A call does not reach over a semicolon. -/
theorem callAt?_semicolon (pos : Nat) (xs ys : List Lexeme) (tail : List Char) :
    callAt? (tokensFrom pos (xs ++ semicolon tail :: ys)) = callAt? (tokensFrom pos xs) := by
  by_cases hcall : BeginsCall xs
  · obtain ⟨site, zs, rfl⟩ := hcall
    rw [List.append_assoc, callAt?_site, callAt?_site]
  · rw [not_beginsCall_of_callAt? hcall, not_beginsCall_of_callAt?]
    rintro ⟨site, zs, hsite⟩
    rcases List.append_eq_append_iff.1 hsite with ⟨ws, hlexemes, hws⟩ | ⟨ws, rfl, -⟩
    · cases ws with
      | nil => exact hcall ⟨site, [], by simp [hlexemes]⟩
      | cons y ws =>
        obtain rfl : semicolon tail = y := (List.cons.inj hws).1
        have hmem : semicolon tail ∈ site.lexemes := by simp [hlexemes]
        have hkinds : ∀ y ∈ site.lexemes, y.kind ≠ .operator ';' := by
          simp [CallSite.lexemes, site.callee_kind, site.opening_kind, site.argument_kind, site.closing_kind]
        exact hkinds _ hmem rfl
    · exact hcall ⟨site, ws, rfl⟩

@[simp] theorem semicolon_size (tail : List Char) : (semicolon tail).size = byteLength tail + 2 := by
  simp only [semicolon, Lexeme.size, Text.byteLength_append, Text.byteLength_cons, Text.byteLength_nil,
    show '\n'.utf8Size = 1 from rfl, show ';'.utf8Size = 1 from rfl]

theorem callsFrom_semicolon (hidden : Bool) (pos : Nat) (xs ys : List Lexeme) (tail : List Char) :
    callsFrom hidden (tokensFrom pos (xs ++ semicolon tail :: ys)) =
      callsFrom hidden (tokensFrom pos xs) ++
        callsFrom false (tokensFrom (pos + byteLength (spell xs tail) + 2) ys) := by
  induction xs generalizing hidden pos with
  | nil =>
    have hnone := callAt?_semicolon pos [] ys tail
    rw [List.nil_append] at hnone ⊢
    rw [callsFrom_cons, hnone, semicolon_size]
    cases hidden <;> rfl
  | cons x xs ih =>
    have hhere := callAt?_semicolon pos (x :: xs) ys tail
    rw [List.cons_append] at hhere ⊢
    rw [callsFrom_cons, callsFrom_cons, hhere, ih, List.append_assoc]
    simp only [spell_cons, Text.byteLength_append, Lexeme.size, Nat.add_assoc]

/-! ### The check -/

section Check

variable {signs first afterExpression : Bool} {braces braces' : List Bool} {xs ys : List Lexeme}
  {tail : List Char} {level : Level}

theorem Level.after_depth {kind : Kind} (hopen : kind ≠ .braceOpen) (hclose : kind ≠ .braceClose)
    (level : Level) (arrow : Bool) : (level.after arrow kind).depth = level.depth := by
  unfold Level.after
  split <;> first | contradiction | rfl | (split <;> rfl)

theorem templateToken_depth {s after : List Char} {kind : Kind}
    (h : templateToken braces s = (kind, after, braces')) :
    kind ≠ .braceOpen ∧ kind ≠ .braceClose ∧ braces'.count false = braces.count false := by
  unfold templateToken at h
  split at h <;>
  · simp only [Prod.mk.injEq] at h
    obtain ⟨rfl, -, rfl⟩ := h
    simp

theorem takeText_ne_brace (quote : Char) (s done : List Char) :
    (takeText quote s done).1 ≠ .braceOpen ∧ (takeText quote s done).1 ≠ .braceClose := by
  rcases takeText_kind quote s done with hkind | ⟨value, hkind⟩ <;> simp [hkind]

/-- The check counts the open braces but for those of templates. -/
theorem scanToken_depth {c : Char} {rest after : List Char} {kind : Kind}
    (hscan : scanToken signs braces afterExpression c rest = (kind, after, braces'))
    (hdepth : level.depth = braces.count false) (arrow : Bool) :
    (level.after arrow kind).depth = braces'.count false := by
  -- all tokens but braces leave the depth and the number of open braces
  have keeps (hkind : kind ≠ .braceOpen ∧ kind ≠ .braceClose ∧ braces'.count false = braces.count false) :
      (level.after arrow kind).depth = braces'.count false := by
    rw [Level.after_depth hkind.1 hkind.2.1, hdepth, hkind.2.2]
  unfold scanToken at hscan
  split at hscan
  case h_5 =>
    simp only [Prod.mk.injEq] at hscan
    obtain ⟨rfl, -, rfl⟩ := hscan
    simp [Level.after, hdepth]
  case h_6 =>
    split at hscan
    · next htemplate =>
      obtain ⟨rest', rfl⟩ : ∃ rest', braces = true :: rest' := ⟨_, List.eq_cons_of_mem_head? htemplate⟩
      obtain ⟨hopen, hclose, hcount⟩ := templateToken_depth hscan
      exact keeps ⟨hopen, hclose, by simpa using hcount⟩
    · next htemplate =>
      simp only [Prod.mk.injEq] at hscan
      obtain ⟨rfl, -, rfl⟩ := hscan
      rcases braces with _ | ⟨_ | _, braces⟩
      · simp [Level.after, hdepth]
      · simp [Level.after, hdepth]
      · exact absurd rfl htemplate
  case h_8 | h_9 =>
    split at hscan <;>
    · simp only [Prod.mk.injEq] at hscan
      obtain ⟨rfl, -, rfl⟩ := hscan
      exact keeps (by simp)
  case h_10 | h_11 =>
    simp only [Prod.mk.injEq] at hscan
    obtain ⟨rfl, -, rfl⟩ := hscan
    exact keeps ⟨(takeText_ne_brace _ rest []).1, (takeText_ne_brace _ rest []).2, rfl⟩
  case h_12 => exact keeps (templateToken_depth hscan)
  case h_13 =>
    refine keeps ?_
    split at hscan
    · split at hscan <;>
      · simp only [Prod.mk.injEq] at hscan
        obtain ⟨rfl, -, rfl⟩ := hscan
        simp
    · split at hscan
      · simp only [Prod.mk.injEq] at hscan
        obtain ⟨rfl, -, rfl⟩ := hscan
        simp
      · split at hscan <;>
        · simp only [Prod.mk.injEq] at hscan
          obtain ⟨rfl, -, rfl⟩ := hscan
          simp
  all_goals
    simp only [Prod.mk.injEq] at hscan
    obtain ⟨rfl, -, rfl⟩ := hscan
    exact keeps (by simp)

/-- After an identifier a semicolon is as good as the end. -/
theorem refuses_semicolon (level : Level) (member : Bool) (kind : Kind) :
    level.refuses member (some (.operator ';')) kind = level.refuses member none kind := by
  cases kind with
  | identifier name => simp only [Level.refuses, moduleOnly]; split <;> rfl
  | _ => rfl

/-- The check does not ask where the tokens stand, but for whether the first touches the one before. -/
theorem firstModuleOnly_moved {previous previous' : Option Token} {pos pos' : Nat}
    (hmember : isMember previous' = isMember previous)
    (htouch : ∀ n, touchesEquals previous' (pos' + n) = touchesEquals previous (pos + n)) :
    firstModuleOnly level previous' (tokensFrom pos' xs) = none ↔
      firstModuleOnly level previous (tokensFrom pos xs) = none := by
  induction xs generalizing level previous previous' pos pos' with
  | nil => rfl
  | cons x xs ih =>
    rw [tokensFrom_cons, tokensFrom_cons, firstModuleOnly_cons, firstModuleOnly_cons, head?_kind_tokensFrom,
      head?_kind_tokensFrom, hmember, htouch]
    refine and_congr_right fun _ => ih (isMember_congr rfl) fun n => touchesEquals_congr n rfl ?_ ?_ <;> simp

/-- What the check refuses before a semicolon outside of all braces and what it refuses after it. -/
theorem firstModuleOnly_semicolon (h : Reads signs first braces afterExpression xs tail)
    (hopen : openAfter signs tail braces afterExpression xs = []) (hdepth : level.depth = braces.count false)
    (previous : Option Token) (pos : Nat) :
    firstModuleOnly level previous (tokensFrom pos (xs ++ semicolon tail :: ys)) = none ↔
      firstModuleOnly level previous (tokensFrom pos xs) = none ∧
        firstModuleOnly ⟨0, false⟩ none (tokensFrom 0 ys) = none := by
  induction h generalizing level previous pos with
  | nil =>
    obtain rfl : _ = [] := hopen
    have hlevel (arrow : Bool) : level.after arrow (.operator ';') = ⟨0, false⟩ := by
      simp [Level.after, show level.depth = 0 by simpa using hdepth]
    rw [List.nil_append, tokensFrom_cons, firstModuleOnly_cons]
    simp only [semicolon, hlevel, Level.refuses, tokensFrom_nil, firstModuleOnly, true_and]
    exact firstModuleOnly_moved rfl fun n => rfl
  | @cons first braces braces' afterExpression gap w c kind xs tail hkind hgap hscan hrest ih =>
    rw [openAfter_cons hscan] at hopen
    rw [List.cons_append, tokensFrom_cons, tokensFrom_cons, firstModuleOnly_cons, firstModuleOnly_cons,
      ih hopen (scanToken_depth hscan hdepth _), and_assoc, head?_kind_tokensFrom, head?_kind_tokensFrom]
    cases xs with
    | nil => rw [List.nil_append, List.head?_cons, Option.map_some, semicolon, refuses_semicolon]; rfl
    | cons y ys => rfl

end Check

/-! ### Both sources -/

/-- A source, a semicolon on a line of its own and another source. -/
def joined (source₁ source₂ : List Char) : List Char := source₁ ++ ['\n', ';', '\n'] ++ source₂

theorem signsExponents_extended (source rest : List Char) :
    signsExponents (source ++ '\n' :: rest) = signsExponents source := by
  have hsame := (Alike.extended source rest).after?_isSome (a := '0') (b := 'x') (by decide) (by decide)
  rw [signsExponents, signsExponents, ← Option.not_isSome, ← Option.not_isSome, hsame]

theorem signsExponents_joined (source₁ source₂ : List Char) :
    signsExponents (joined source₁ source₂) = signsExponents source₁ := by
  rw [joined, List.append_assoc, List.cons_append, signsExponents_extended]

theorem readsAs_joined {source₁ source₂ : List Char} {xs ys : List Lexeme} {tail tail' : List Char}
    (h₁ : ReadsAs source₁ xs tail) (hopen : leftOpen source₁ = []) (hsource : source₂ = spell ys tail')
    (h₂ : Reads (signsExponents source₁) true [] false ys tail')
    (hfirst : Text.after? ['#', '!'] source₂ = none) :
    ∃ zs tail'', ReadsAs (joined source₁ source₂) (xs ++ semicolon tail :: zs) tail'' ∧
      ∀ pos, tokensFrom pos zs = tokensFrom (pos + 1) ys := by
  obtain ⟨zs, tail'', hspell, hzs, htokens⟩ := (h₂.inside (by rwa [← hsource])).behind separates_newline
  have hreads : Reads (signsExponents source₁) true [] false (xs ++ semicolon tail :: zs) tail'' := by
    refine h₁.2.statement ?_
    rw [← signsExponents, ← h₁.leftOpen_eq, hopen]
    exact hzs
  refine ⟨zs, tail'', ⟨?_, ?_⟩, htokens⟩
  · rw [spell_statement, ← h₁.1, hspell, ← hsource]
    simp [joined]
  · rw [← signsExponents, signsExponents_joined]
    exact hreads

/-- The calls of two sources with a semicolon between them are those of the first and those of the second, as far
on as the second stands; and the check accepts the whole exactly if it accepts both.  The first must leave no
brace open and the second must not name an interpreter; and no exponent of the second may have a sign, unless
both or none of the two begin as a hexadecimal number. -/
theorem scanning_composes {id : String} {source₁ source₂ : List Char} {ts₁ ts₂ : List Token}
    (h₁ : tokens id source₁ = .ok ts₁) (h₂ : tokens id source₂ = .ok ts₂) (hopen : leftOpen source₁ = [])
    (hfirst : Text.after? ['#', '!'] source₂ = none)
    (hsigns : signsExponents source₁ = signsExponents source₂ ∨ hasSignedExponent source₂ = false) :
    (∃ calls₁ calls₂, calls id source₁ = .ok calls₁ ∧ calls id source₂ = .ok calls₂ ∧
      calls id (joined source₁ source₂) =
        .ok (calls₁ ++ calls₂.map (Call.shifted (byteLength source₁ + 3)))) ∧
      (check id (joined source₁ source₂) = .ok () ↔
        check id source₁ = .ok () ∧ check id source₂ = .ok ()) := by
  obtain ⟨xs, tail, hxs⟩ := exists_readsAs (tokens_ok_iff.1 h₁).2
  obtain ⟨ys, tail', hys⟩ := exists_readsAs (tokens_ok_iff.1 h₂).2
  have hreads : Reads (signsExponents source₁) true [] false ys tail' := by
    rcases hsigns with hsame | hplain
    · rw [hsame]
      exact hys.2
    · exact hys.2.signs (by rwa [← hys.1]) _
  obtain ⟨zs, tail'', hjoined, hzs⟩ := readsAs_joined hxs hopen hys.1 hreads hfirst
  have htokens := hjoined.tokens_eq id
  refine ⟨⟨_, _, by rw [calls, hxs.tokens_eq id]; rfl, by rw [calls, hys.tokens_eq id]; rfl, ?_⟩, ?_⟩
  · rw [calls, htokens, Except.map, callsFrom_semicolon, hzs, ← hxs.1, ← callsFrom_shifted, Nat.zero_add,
      Nat.zero_add]
  · rw [check_ok_iff htokens, check_ok_iff (hxs.tokens_eq id), check_ok_iff (hys.tokens_eq id)]
    have hclosed : openAfter (signsExponents source₁) tail [] false xs = [] := hxs.leftOpen_eq ▸ hopen
    rw [firstModuleOnly_semicolon hxs.2 hclosed rfl none 0, hzs]
    exact and_congr_right fun _ => firstModuleOnly_moved rfl fun _ => rfl

/-- A call in a template, and a comment that the end of the source closes. -/
def beforeSource : List Char := "f(\x60$\x7brequire('a')\x7d\x60) // x".toList

/-- A regular expression where a source begins, and a call. -/
def behindSource : List Char := "/'/.test(require('b'))".toList

theorem scanning_composes_template :
    (∃ ts₁ ts₂, tokens "a" beforeSource = .ok ts₁ ∧ tokens "a" behindSource = .ok ts₂) ∧
      leftOpen beforeSource = [] ∧ Text.after? ['#', '!'] behindSource = none ∧
      signsExponents beforeSource = signsExponents behindSource ∧
      calls "a" (joined beforeSource behindSource) =
        .ok [⟨"a", ⟨5, 12⟩, ⟨13, 16⟩⟩, ⟨"b", ⟨37, 44⟩, ⟨45, 48⟩⟩] := by
  have h₁ : tokens "a" beforeSource = .ok (scan beforeSource) := rfl
  have h₂ : tokens "a" behindSource = .ok (scan behindSource) := rfl
  have hopen : leftOpen beforeSource = [] := by decide +kernel
  have hfirst : Text.after? ['#', '!'] behindSource = none := by decide +kernel
  have hsigns : signsExponents beforeSource = signsExponents behindSource := by decide +kernel
  refine ⟨⟨_, _, h₁, h₂⟩, hopen, hfirst, hsigns, ?_⟩
  obtain ⟨⟨calls₁, calls₂, hcalls₁, hcalls₂, hcalls⟩, -⟩ := scanning_composes h₁ h₂ hopen hfirst (.inl hsigns)
  have hone : calls "a" beforeSource = .ok [⟨"a", ⟨5, 12⟩, ⟨13, 16⟩⟩] := rfl
  have htwo : calls "a" behindSource = .ok [⟨"b", ⟨9, 16⟩, ⟨17, 20⟩⟩] := rfl
  obtain rfl : _ = calls₁ := Except.ok.inj (hone.symm.trans hcalls₁)
  obtain rfl : _ = calls₂ := Except.ok.inj (htwo.symm.trans hcalls₂)
  have hlength : byteLength beforeSource = 25 := by decide +kernel
  rw [hcalls, hlength]
  rfl

/-- Behind a source that is no hexadecimal number, one that begins the second takes in the sign after its last digit
and the call after that. -/
theorem exponent_joined :
    ¬ ∀ (id : String) (source₁ source₂ : List Char) (ts₁ ts₂ : List Token), tokens id source₁ = .ok ts₁ →
      tokens id source₂ = .ok ts₂ → leftOpen source₁ = [] → Text.after? ['#', '!'] source₂ = none →
        ∃ calls₁ calls₂, calls id source₁ = .ok calls₁ ∧ calls id source₂ = .ok calls₂ ∧
          calls id (joined source₁ source₂) =
            .ok (calls₁ ++ calls₂.map (Call.shifted (byteLength source₁ + 3))) := by
  intro hall
  obtain ⟨calls₁, calls₂, hcalls₁, hcalls₂, hcalls⟩ := hall "a" ['a'] "0xe+require('x')".toList _ _ rfl rfl
    (by decide +kernel) (by decide +kernel)
  have hone : calls "a" "0xe+require('x')".toList = .ok [⟨"x", ⟨4, 11⟩, ⟨12, 15⟩⟩] := rfl
  have hlost : calls "a" (joined ['a'] "0xe+require('x')".toList) = .ok [] := rfl
  obtain rfl : _ = calls₂ := Except.ok.inj (hone.symm.trans hcalls₂)
  rw [hlost] at hcalls
  simp at hcalls

end ScriptVault.Script
