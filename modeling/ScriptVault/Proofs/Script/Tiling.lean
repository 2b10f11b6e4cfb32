import ScriptVault.Proofs.Script.Exchange
import ScriptVault.Proofs.Script.Moved
import ScriptVault.Proofs.Script.Statements

/-!
# Tiling — the spans of the tokens and what stands between them

The scanner counts the bytes that it has read.  Whatever the source, it takes apart all of it: `Tiles` are its
tokens with what stands before each of them, among them also tokens that could not be read, of which only a comment
without end has no characters of its own.  So spans follow one another in the source and are never out of it.  What
the scanner skips is a `Gap`, blanks and comments that have an end, and before the first token the line that names
an interpreter.
-/

namespace ScriptVault.Script

open Text (byteLength isBlank isIdContinue isIdStart)

/-! ### What a token takes -/

theorem takeText_suffix (quote : Char) (s done : List Char) : (takeText quote s done).2 <:+ s := by
  fun_induction takeText quote s done with
  | case1 => exact List.suffix_rfl
  | case2 rest => exact List.suffix_cons _ rest
  | case3 | case4 => exact List.nil_suffix
  | case5 e rest => exact List.suffix_cons _ _
  | case6 rest done _ _ ih => exact ih.trans ((List.suffix_cons _ rest).trans (List.suffix_cons _ _))
  | case7 e rest done _ _ _ ih => exact ih.trans ((List.suffix_cons _ rest).trans (List.suffix_cons _ _))
  | case8 c e rest done _ _ _ ih => exact ih.trans (List.suffix_cons _ _)

theorem takeRegex_suffix {inClass : Bool} {s after : List Char}
    (h : takeRegex inClass s = .ok after ∨ takeRegex inClass s = .error after) : after <:+ s := by
  fun_induction takeRegex inClass s with
  | case1 =>
    obtain rfl : [] = after := by simpa using h
    exact List.suffix_rfl
  | case2 _ rest =>
    obtain rfl : rest = after := by simpa using h
    exact List.suffix_cons _ _
  | case3 inClass e rest ih => exact (ih h).trans ((List.suffix_cons _ rest).trans (List.suffix_cons _ _))
  | case4 inClass rest _ _ ih | case5 inClass rest _ _ _ ih => exact (ih h).trans (List.suffix_cons _ _)
  | case6 inClass c rest =>
    obtain rfl : rest.dropWhile isIdContinue = after := by simpa using h
    exact (List.dropWhile_suffix _).trans (List.suffix_cons _ _)
  | case7 inClass c rest _ _ _ _ _ ih => exact (ih h).trans (List.suffix_cons _ _)

theorem templateToken_suffix (braces : List Bool) (s : List Char) : (templateToken braces s).2.1 <:+ s := by
  unfold templateToken
  split
  · next rest hpiece =>
    obtain ⟨w, rfl, -⟩ := takeTemplate_local hpiece
    exact List.suffix_append w rest
  · next rest hpiece =>
    obtain ⟨w, rfl, -⟩ := takeTemplate_local hpiece
    exact List.suffix_append w rest
  · exact List.nil_suffix

/-- A token is taken from the front, also when it cannot be read. -/
theorem scanToken_suffix (signs : Bool) (braces : List Bool) (afterExpression : Bool) (c : Char)
    (rest : List Char) : (scanToken signs braces afterExpression c rest).2.1 <:+ rest := by
  unfold scanToken
  split
  case h_6 =>
    split
    · exact templateToken_suffix _ rest
    · exact List.suffix_rfl
  case h_8 =>
    split
    · exact dropNumber_suffix signs _ rest
    · exact List.suffix_rfl
  case h_9 =>
    split
    · exact List.tail_suffix rest
    · exact List.suffix_rfl
  case h_10 | h_11 => exact takeText_suffix _ rest []
  case h_12 => exact templateToken_suffix braces rest
  case h_13 =>
    split
    · split
      · next h => exact takeRegex_suffix (Or.inl h)
      · next h => exact takeRegex_suffix (Or.inr h)
    · split
      · exact dropNumber_suffix signs c rest
      · split
        · exact List.dropWhile_suffix _
        · exact List.suffix_rfl
  all_goals exact List.suffix_rfl

/-! ### The tokens of every source -/

/-- The lexemes of a source whatever can be read of it: each takes characters, of which an identifier has its name,
but that a comment without an end takes all that is left into its gap and is the last. -/
inductive Tiles : List Lexeme → List Char → Prop
  | ended (tail : List Char) : Tiles [] tail
  | unclosed (gap : List Char) : Tiles [⟨gap, [], .invalid .comment⟩] []
  | token {x : Lexeme} {xs : List Lexeme} {tail : List Char} (htext : x.text ≠ [])
      (hname : ∀ name, x.kind = .identifier name → name = String.ofList x.text) (hrest : Tiles xs tail) :
      Tiles (x :: xs) tail

theorem ahead?_nil (first : Bool) : ahead? first [] = some [] := by
  cases first <;> rfl

theorem next_unclosed (signs : Bool) {cur : Cursor} (h : ahead? (cur.pos = 0) cur.rest = none) :
    cur.next signs = some (⟨.invalid .comment, ⟨cur.pos + byteLength cur.rest, cur.pos + byteLength cur.rest⟩⟩,
      ⟨[], cur.pos + byteLength cur.rest, cur.braces, cur.afterExpression⟩) := by
  simp only [ahead?] at h
  simp only [Cursor.next, h]

/-- From a cursor on, the tokens are those of lexemes, however many are asked for. -/
theorem exists_tiles (signs : Bool) {n : Nat} {cur : Cursor} (hn : cur.rest.length < n) :
    ∃ xs tail, cur.rest = spell xs tail ∧ Tiles xs tail ∧
      ∀ fuel, cur.tokens signs fuel = (tokensFrom cur.pos xs).take fuel := by
  induction n generalizing cur with
  | zero => omega
  | succ n ih =>
    cases hahead : ahead? (cur.pos = 0) cur.rest with
    | none =>
      refine ⟨[⟨cur.rest, [], .invalid .comment⟩], [], by simp, .unclosed _, fun fuel => ?_⟩
      -- behind the comment nothing is left
      have hend := @next_of_ahead?_nil signs
        ⟨[], cur.pos + byteLength cur.rest, cur.braces, cur.afterExpression⟩ (ahead?_nil _)
      cases fuel with
      | zero => rfl
      | succ fuel =>
        simp only [Cursor.tokens, next_unclosed signs hahead, tokensFrom_cons, tokensFrom_nil, Lexeme.size,
          Text.byteLength_nil, Nat.add_zero, List.take_succ_cons, List.take_nil, List.cons.injEq, true_and]
        cases fuel with
        | zero => rfl
        | succ fuel => simp only [Cursor.tokens, hend]
    | some s =>
      obtain ⟨-, gap, hrest, -⟩ := ahead?_skips hahead
      cases s with
      | nil =>
        refine ⟨[], cur.rest, rfl, .ended _, fun fuel => ?_⟩
        cases fuel with
        | zero => rfl
        | succ fuel => simp only [Cursor.tokens, next_of_ahead?_nil signs hahead, tokensFrom_nil, List.take_nil]
      | cons c rest =>
        rcases hscan : scanToken signs cur.braces cur.afterExpression c rest with ⟨kind, after, braces⟩
        have hsuffix := scanToken_suffix signs cur.braces cur.afterExpression c rest
        rw [hscan] at hsuffix
        obtain ⟨w, rfl⟩ := hsuffix
        have hshort : after.length < n := by
          simp only [hrest, List.length_append, List.length_cons] at hn
          omega
        obtain ⟨xs, tail, rfl, htiles, htokens⟩ := @ih
          ⟨after, cur.pos + (byteLength gap + byteLength (c :: w)), braces, kind.endsExpression⟩ hshort
        refine ⟨⟨gap, c :: w, kind⟩ :: xs, tail, hrest, .token (List.cons_ne_nil c w) ?_ htiles, fun fuel => ?_⟩
        · rintro name rfl
          obtain ⟨hname, hafter, -⟩ := scanToken_eq_identifier hscan
          have hword := @List.takeWhile_append_dropWhile _ isIdContinue (w ++ spell xs tail)
          rw [← hafter] at hword
          rw [hname, List.append_cancel_right hword]
        · cases fuel with
          | zero => rfl
          | succ fuel => simp only [Cursor.tokens, next_eq hrest hahead hscan, htokens, tokensFrom_cons,
              Lexeme.size, List.take_succ_cons]

theorem byteLength_pos_of_ne_nil {s : List Char} (h : s ≠ []) : 0 < byteLength s := by
  cases s with
  | nil => exact absurd rfl h
  | cons c s => exact byteLength_pos c s

namespace Tiles

variable {xs : List Lexeme} {tail : List Char}

/-- There are no more tokens than characters, and one for a comment without an end. -/
theorem length_le (h : Tiles xs tail) : xs.length ≤ (spell xs tail).length + 1 := by
  induction h with
  | ended => simp
  | unclosed gap => simp
  | @token x xs tail htext _ _ ih =>
    have := List.length_pos_of_ne_nil htext
    simp only [List.length_cons, spell_cons, List.length_append]
    omega

/-- Each token starts behind the one before it, and after where that one starts. -/
theorem pairwise (h : Tiles xs tail) (pos : Nat) :
    (tokensFrom pos xs).Pairwise fun t u => t.span.stop ≤ u.span.start ∧ t.span.start < u.span.start := by
  induction h generalizing pos with
  | ended => exact .nil
  | unclosed gap => exact List.pairwise_singleton ..
  | @token x xs tail htext _ _ ih =>
    refine .cons (fun u hu => ?_) (ih _)
    have hle := le_start_of_mem hu
    have := byteLength_pos_of_ne_nil htext
    simp only [Lexeme.size] at hle ⊢
    omega

/-- A token stands where its characters do. -/
theorem placed (h : Tiles xs tail) (front : List Char) {t : Token} (ht : t ∈ tokensFrom (byteLength front) xs) :
    ∃ before text after, front ++ spell xs tail = before ++ (text ++ after) ∧
      t.span = ⟨byteLength before, byteLength (before ++ text)⟩ ∧ (t.kind.Readable → text ≠ []) ∧
      ∀ name, t.kind = .identifier name → name = String.ofList text := by
  induction h generalizing front with
  | ended => cases ht
  | unclosed gap =>
    obtain rfl := List.mem_singleton.1 ht
    refine ⟨front ++ gap, [], [], by simp, by simp [Lexeme.size], fun hkind => absurd rfl (hkind .comment), ?_⟩
    rintro name ⟨⟩
  | @token x xs tail htext hname _ ih =>
    rcases List.mem_cons.1 ht with rfl | ht
    · exact ⟨front ++ x.gap, x.text, spell xs tail, by simp, by simp [Lexeme.size],
        fun _ => htext, hname⟩
    · have hsize : byteLength front + x.size = byteLength (front ++ x.gap ++ x.text) := by
        simp [Lexeme.size]
      rw [hsize] at ht
      obtain ⟨before, text, after, hsplit, hspec⟩ := ih _ ht
      exact ⟨before, text, after, by rw [← hsplit]; simp, hspec⟩

end Tiles

/-! ### What is skipped -/

/-- Blanks and comments that end, in front of a text. -/
inductive Gap : List Char → List Char → Prop
  | nil (after : List Char) : Gap [] after
  | blank {c : Char} {gap after : List Char} (hc : isBlank c = true) (hrest : Gap gap after) : Gap (c :: gap) after
  | line {text gap after : List Char} (htext : ∀ c ∈ text, inLine c = true)
      (hends : (gap ++ after).head?.any inLine = false) (hrest : Gap gap after) :
      Gap ('/' :: '/' :: (text ++ gap)) after
  | block {text gap after : List Char} (htext : ¬['*', '/'] <:+: text) (hrest : Gap gap after) :
      Gap ('/' :: '*' :: (text ++ '*' :: '/' :: gap)) after

/-- A gap in which a first line that names an interpreter may stand before all else. -/
def FirstGap (gap after : List Char) : Prop :=
  Gap gap after ∨ ∃ line behind, gap = '#' :: '!' :: (line ++ behind) ∧ (∀ c ∈ line, inLine c = true) ∧
    (behind ++ after).head?.any inLine = false ∧ Gap behind after

/-- A comment ends where it can end first. -/
theorem skipComment?_eq_some {s behind : List Char} (h : skipComment? s = some behind) :
    ∃ text, s = text ++ '*' :: '/' :: behind ∧ ¬['*', '/'] <:+: text := by
  fun_induction skipComment? s with
  | case1 rest =>
    obtain rfl := Option.some.inj h
    exact ⟨[], rfl, by simp⟩
  | case2 c rest hend ih =>
    obtain ⟨text, rfl, htext⟩ := ih h
    refine ⟨c :: text, rfl, fun hpart => ?_⟩
    rcases List.infix_cons_iff.1 hpart with hprefix | hpart
    · obtain ⟨t, ht⟩ := hprefix
      obtain ⟨rfl, rfl⟩ := List.cons.inj ht
      exact hend _ rfl rfl
    · exact htext hpart
  | case3 => cases h

theorem inLine_of_mem_takeWhile (s : List Char) : ∀ c ∈ s.takeWhile inLine, inLine c = true :=
  fun _ hc => List.mem_takeWhile_imp hc

/-- What is skipped is a gap. -/
theorem gap_of_skipBlanks {fuel : Nat} {s after : List Char} (h : skipBlanks fuel s = some after) :
    ∃ gap, s = gap ++ after ∧ Gap gap after := by
  induction fuel generalizing s with
  | zero =>
    obtain rfl := Option.some.inj h
    exact ⟨[], rfl, .nil _⟩
  | succ fuel ih =>
    rw [skipBlanks_succ] at h
    split at h
    · next rest =>
      obtain ⟨gap, hskip, hgap⟩ := ih h
      refine ⟨'/' :: '/' :: (rest.takeWhile inLine ++ gap), ?_, .line (inLine_of_mem_takeWhile rest) ?_ hgap⟩
      · rw [List.cons_append, List.cons_append, List.append_assoc, ← hskip, skipLine]
        exact congrArg _ (congrArg _ List.takeWhile_append_dropWhile.symm)
      · rw [← hskip]
        exact head?_dropWhile_any inLine rest
    · next rest =>
      obtain ⟨behind, hcomment, hbehind⟩ := Option.bind_eq_some_iff.1 h
      obtain ⟨text, rfl, htext⟩ := skipComment?_eq_some hcomment
      obtain ⟨gap, rfl, hgap⟩ := ih hbehind
      exact ⟨'/' :: '*' :: (text ++ '*' :: '/' :: gap), by simp, .block htext hgap⟩
    · next c rest _ _ =>
      split at h
      · next hblank =>
        obtain ⟨gap, rfl, hgap⟩ := ih h
        exact ⟨c :: gap, rfl, .blank hblank hgap⟩
      · obtain rfl := Option.some.inj h
        exact ⟨[], rfl, .nil _⟩
    · obtain rfl := Option.some.inj h
      exact ⟨[], rfl, .nil _⟩

theorem gap_of_ahead? {gap after : List Char} (h : ahead? false (gap ++ after) = some after) : Gap gap after := by
  simp only [ahead?, Bool.false_and, Bool.false_eq_true, if_false] at h
  obtain ⟨gap', hgap', hspec⟩ := gap_of_skipBlanks h
  rwa [List.append_cancel_right hgap']

theorem firstGap_of_ahead? {gap after : List Char} (h : ahead? true (gap ++ after) = some after) :
    FirstGap gap after := by
  unfold ahead? at h
  by_cases hnames : (Text.after? ['#', '!'] (gap ++ after)).isSome = true
  · simp only [hnames, Bool.and_self, if_true] at h
    obtain ⟨behind, hskip, hspec⟩ := gap_of_skipBlanks h
    obtain ⟨rest, hrest⟩ := Option.isSome_iff_exists.1 hnames
    rw [Text.after?_eq_some_iff] at hrest
    have hdrop : rest.dropWhile inLine = behind ++ after := by rwa [hrest] at hskip
    refine Or.inr ⟨rest.takeWhile inLine, behind, ?_, inLine_of_mem_takeWhile rest, ?_, hspec⟩
    · refine List.append_left_injective after ?_
      calc gap ++ after = '#' :: '!' :: rest := hrest
        _ = '#' :: '!' :: (rest.takeWhile inLine ++ (behind ++ after)) := by
          rw [← hdrop, List.takeWhile_append_dropWhile]
        _ = '#' :: '!' :: (rest.takeWhile inLine ++ behind) ++ after := by simp
    · rw [← hdrop]
      exact head?_dropWhile_any inLine rest
  · simp only [hnames, Bool.and_false, Bool.false_eq_true, if_false] at h
    obtain ⟨gap', hgap', hspec⟩ := gap_of_skipBlanks h
    exact Or.inl (by rwa [List.append_cancel_right hgap'])

/-! ### Tokens and gaps -/

/-- Lexemes can be parted where their tokens can. -/
theorem exists_parts {pos : Nat} {xs : List Lexeme} {front back : List Token}
    (h : tokensFrom pos xs = front ++ back) :
    ∃ ys zs, xs = ys ++ zs ∧ tokensFrom pos ys = front ∧
      tokensFrom (pos + byteLength (spell ys [])) zs = back := by
  induction front generalizing pos xs with
  | nil => exact ⟨[], xs, rfl, rfl, h⟩
  | cons t front ih =>
    cases xs with
    | nil => cases h
    | cons x xs =>
      obtain ⟨rfl, hrest⟩ := List.cons.inj h
      obtain ⟨ys, zs, rfl, rfl, rfl⟩ := ih hrest
      exact ⟨x :: ys, zs, rfl, rfl, by simp [Lexeme.size, Nat.add_assoc]⟩

/-- The byte behind some tokens that begin at a byte. -/
def stopOf (pos : Nat) (ts : List Token) : Nat := (ts.getLast?.map (·.span.stop)).getD pos

/-- The byte at which the next of some tokens starts; the end of the source when there is none. -/
def startOf (stop : Nat) (ts : List Token) : Nat := (ts.head?.map (·.span.start)).getD stop

theorem stopOf_tokensFrom (pos : Nat) (xs : List Lexeme) :
    stopOf pos (tokensFrom pos xs) = pos + byteLength (spell xs []) := by
  induction xs generalizing pos with
  | nil => rfl
  | cons x xs ih =>
    have hrest := ih (pos + x.size)
    simp only [stopOf, tokensFrom_cons, List.getLast?_cons, Option.map_some, Option.getD_some, spell_cons,
      Text.byteLength_append, Lexeme.size] at hrest ⊢
    cases hlast : (tokensFrom (pos + (byteLength x.gap + byteLength x.text)) xs).getLast? with
    | none => simp [hlast] at hrest ⊢; omega
    | some t => simp [hlast] at hrest ⊢; omega

/-- Behind some lexemes the scanner goes on, and it is in the first line only when there were none. -/
theorem Reads.drop {signs first afterExpression : Bool} {braces : List Bool} {xs ys : List Lexeme}
    {tail : List Char} (h : Reads signs first braces afterExpression (xs ++ ys) tail) :
    ∃ first' braces' afterExpression', Reads signs first' braces' afterExpression' ys tail ∧
      (first' = true → xs = []) := by
  induction xs generalizing first braces afterExpression with
  | nil => exact ⟨first, braces, afterExpression, h, fun _ => rfl⟩
  | cons x xs ih =>
    cases h with
    | cons hkind hgap hscan hrest =>
      cases xs with
      | nil => exact ⟨false, _, _, hrest, fun h => by cases h⟩
      | cons y xs =>
        obtain ⟨first', braces', afterExpression', hreads, hfirst⟩ := ih hrest
        exact ⟨first', braces', afterExpression', hreads, fun h => absurd (hfirst h) (List.cons_ne_nil y xs)⟩

/-- What stands before the next token, or before the end, is a gap. -/
theorem Reads.gap {signs first afterExpression : Bool} {braces : List Bool} {xs : List Lexeme} {tail : List Char}
    (h : Reads signs first braces afterExpression xs tail) (pos : Nat) :
    ∃ gap after, spell xs tail = gap ++ after ∧
      pos + byteLength gap = startOf (pos + byteLength (spell xs tail)) (tokensFrom pos xs) ∧
      (Gap gap after ∨ first = true ∧ FirstGap gap after) := by
  have gap_of {gap after : List Char} (hahead : ahead? first (gap ++ after) = some after) :
      Gap gap after ∨ first = true ∧ FirstGap gap after := by
    cases first with
    | false => exact Or.inl (gap_of_ahead? hahead)
    | true => exact Or.inr ⟨rfl, firstGap_of_ahead? hahead⟩
  cases h with
  | nil hahead => exact ⟨tail, [], by simp, rfl, gap_of (by simpa using hahead)⟩
  | cons hkind hgap hscan hrest => exact ⟨_, _, rfl, rfl, gap_of hgap⟩

theorem length_tokensFrom (pos : Nat) (xs : List Lexeme) : (tokensFrom pos xs).length = xs.length := by
  rw [← List.length_map Token.kind, map_kind_tokensFrom, List.length_map]

/-- The tokens of a source are those of lexemes, and all that the scanner gives. -/
theorem exists_tiles_scan (source : List Char) :
    ∃ xs tail, source = spell xs tail ∧ Tiles xs tail ∧ scan source = tokensFrom 0 xs ∧
      ∀ n, (Cursor.start source).tokens (Text.after? ['0', 'x'] source).isNone n = (tokensFrom 0 xs).take n := by
  obtain ⟨xs, tail, hspell, htiles, htokens⟩ :=
    exists_tiles (Text.after? ['0', 'x'] source).isNone (Nat.lt_succ_self (Cursor.start source).rest.length)
  have hsource : source = spell xs tail := hspell
  have hlength := htiles.length_le
  rw [← hsource] at hlength
  refine ⟨xs, tail, hsource, htiles, ?_, htokens⟩
  exact (htokens _).trans (List.take_of_length_le (by rwa [length_tokensFrom]))

/-- The spans of the tokens tile the source.  However often the scanner is asked for a token, it gives those of the
scan, which are not more than the characters of the source and one.  They stand one behind the other, each on
characters of the source: on some if it could be read, and on its name if it is an identifier.  When all of them could
be read, only blanks and comments that end stand before, between and behind them, and at the beginning of the source
a line that names an interpreter. -/
theorem spans_tile (source : List Char) :
    (∀ n, (Cursor.start source).tokens (Text.after? ['0', 'x'] source).isNone n = (scan source).take n) ∧
      (scan source).length ≤ source.length + 1 ∧
      (scan source).Pairwise (fun t u => t.span.stop ≤ u.span.start ∧ t.span.start < u.span.start) ∧
      (∀ t ∈ scan source, ∃ before text after, source = before ++ (text ++ after) ∧
        t.span = ⟨byteLength before, byteLength (before ++ text)⟩ ∧ (t.kind.Readable → text ≠ []) ∧
        ∀ name, t.kind = .identifier name → name = String.ofList text) ∧
      ((∀ t ∈ scan source, t.kind.Readable) → ∀ front back, scan source = front ++ back →
        ∃ before gap after, source = before ++ (gap ++ after) ∧ byteLength before = stopOf 0 front ∧
          byteLength (before ++ gap) = startOf (byteLength source) back ∧
          (Gap gap after ∨ front = [] ∧ FirstGap gap after)) := by
  obtain ⟨xs, tail, hsource, htiles, hscan, htokens⟩ := exists_tiles_scan source
  refine ⟨fun n => hscan ▸ htokens n, ?_, hscan ▸ htiles.pairwise 0, fun t ht => ?_,
    fun hreadable front back hsplit => ?_⟩
  · rw [hscan, length_tokensFrom, hsource]
    exact htiles.length_le
  · rw [hscan] at ht
    simpa [← hsource] using htiles.placed [] ht
  · obtain ⟨xs, tail, hreads⟩ := exists_readsAs hreadable
    rw [hreads.scan_eq] at hsplit
    obtain ⟨ys, zs, rfl, rfl, rfl⟩ := exists_parts hsplit
    obtain ⟨rfl, hreads⟩ := hreads
    obtain ⟨first, _, _, hbehind, hfirst⟩ := hreads.drop
    obtain ⟨gap, after, hspell, hstart, hgap⟩ := hbehind.gap (byteLength (spell ys []))
    have hwhole : spell (ys ++ zs) tail = spell ys [] ++ (gap ++ after) := by
      rw [spell_append, ← hspell, ← spell_append_tail, List.nil_append]
    refine ⟨spell ys [], gap, after, hwhole, by rw [stopOf_tokensFrom, Nat.zero_add], ?_, hgap.imp_right ?_⟩
    · rw [Text.byteLength_append, hstart, hwhole, Text.byteLength_append, hspell, Nat.zero_add]
    · rintro ⟨hline, hgap⟩
      exact ⟨by rw [hfirst hline, tokensFrom_nil], hgap⟩

end ScriptVault.Script
