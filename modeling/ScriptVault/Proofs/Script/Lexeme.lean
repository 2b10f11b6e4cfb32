import ScriptVault.Proofs.Script.Lookahead
import ScriptVault.Script.Calls

/-!
# Lexeme — a source as its tokens with what stands between them

A source whose tokens can all be read is spelled by its lexemes: each token's own characters after the blanks
and comments before it.  `Reads` says that the scanner reads a source so, without counting bytes;
`exists_reads` and `Reads.scan_eq` are the two directions between it and `scan`.
-/

namespace ScriptVault.Script

open Text (byteLength isBlank)

/-- A token's characters with the blanks and comments before it. -/
structure Lexeme where
  gap : List Char
  text : List Char
  kind : Kind
  deriving DecidableEq, Repr

/-- The bytes of a lexeme. -/
def Lexeme.size (x : Lexeme) : Nat := byteLength x.gap + byteLength x.text

/-- The source of some lexemes, up to a tail of blanks and comments. -/
def spell : List Lexeme → List Char → List Char
  | [], tail => tail
  | x :: xs, tail => x.gap ++ (x.text ++ spell xs tail)

@[simp] theorem spell_nil (tail : List Char) : spell [] tail = tail := rfl

@[simp] theorem spell_cons (x : Lexeme) (xs : List Lexeme) (tail : List Char) :
    spell (x :: xs) tail = x.gap ++ (x.text ++ spell xs tail) := rfl

/-- The tokens of some lexemes of which the first begins at a byte. -/
def tokensFrom (pos : Nat) : List Lexeme → List Token
  | [] => []
  | x :: xs => ⟨x.kind, ⟨pos + byteLength x.gap, pos + x.size⟩⟩ :: tokensFrom (pos + x.size) xs

@[simp] theorem tokensFrom_nil (pos : Nat) : tokensFrom pos [] = [] := rfl

@[simp] theorem tokensFrom_cons (pos : Nat) (x : Lexeme) (xs : List Lexeme) :
    tokensFrom pos (x :: xs) =
      ⟨x.kind, ⟨pos + byteLength x.gap, pos + x.size⟩⟩ :: tokensFrom (pos + x.size) xs := rfl

theorem tokensFrom_eq_cons {pos : Nat} {xs : List Lexeme} {kind : Kind} {span : Span} {ts : List Token}
    (h : tokensFrom pos xs = ⟨kind, span⟩ :: ts) :
    ∃ x ys, xs = x :: ys ∧ x.kind = kind ∧ tokensFrom (pos + x.size) ys = ts := by
  cases xs with
  | nil => cases h
  | cons x ys =>
    obtain ⟨hx, hts⟩ := List.cons.inj h
    exact ⟨x, ys, rfl, congrArg Token.kind hx, hts⟩

theorem map_kind_tokensFrom (pos : Nat) (xs : List Lexeme) :
    (tokensFrom pos xs).map Token.kind = xs.map Lexeme.kind := by
  induction xs generalizing pos with
  | nil => rfl
  | cons x xs ih => simp [ih]

theorem tokensFrom_append (pos : Nat) (xs ys : List Lexeme) :
    tokensFrom pos (xs ++ ys) = tokensFrom pos xs ++ tokensFrom (pos + byteLength (spell xs [])) ys := by
  induction xs generalizing pos with
  | nil => rfl
  | cons x xs ih =>
    simp only [List.cons_append, tokensFrom_cons, ih, spell_cons, Text.byteLength_append, Lexeme.size, Nat.add_assoc]

/-! ### Where the next token begins -/

/-- What follows the blanks and comments, and the first line when that names an interpreter. -/
def ahead? (first : Bool) (s : List Char) : Option (List Char) :=
  let start := if first && (Text.after? ['#', '!'] s).isSome then skipLine s else s
  skipBlanks (start.length + 1) start

/-- The gap is skipped the same in front of every text before which its last line ends, if both or none name an
interpreter. -/
theorem ahead?_skips {first : Bool} {s t : List Char} (h : ahead? first s = some t) :
    Stops t ∧ ∃ gap, s = gap ++ t ∧ ∀ t', EndsLine t t' →
      (first = true →
        (Text.after? ['#', '!'] (gap ++ t')).isSome = (Text.after? ['#', '!'] (gap ++ t)).isSome) →
        ∃ fuel, t'.length < fuel ∧ ahead? first (gap ++ t') = skipBlanks fuel t' := by
  unfold ahead? at h
  by_cases hline : (first && (Text.after? ['#', '!'] s).isSome) = true
  · simp only [hline, if_true] at h
    obtain ⟨hstops, gap, hgap, hread⟩ := skipBlanks_skips (Nat.lt_succ_self _) h
    obtain ⟨line, hs, hskip⟩ := skipLine_local s
    rw [hgap, ← List.append_assoc] at hs
    rw [hgap] at hskip
    refine ⟨hstops, line ++ gap, hs, fun t' hends hnames => ?_⟩
    have hline' : (first && (Text.after? ['#', '!'] (line ++ gap ++ t')).isSome) = true := by
      rw [hnames (Bool.and_eq_true_iff.1 hline).1, ← hs]
      exact hline
    simp only [ahead?, hline', if_true]
    rw [List.append_assoc, hskip _ (hends.append gap)]
    exact hread t' _ hends (Nat.lt_succ_self _)
  · simp only [hline, Bool.false_eq_true, if_false] at h
    obtain ⟨hstops, gap, rfl, hread⟩ := skipBlanks_skips (Nat.lt_succ_self _) h
    refine ⟨hstops, gap, rfl, fun t' hends hnames => ?_⟩
    have hline' : ¬(first && (Text.after? ['#', '!'] (gap ++ t')).isSome) = true := by
      intro hline'
      obtain ⟨hfirst, hline'⟩ := Bool.and_eq_true_iff.1 hline'
      exact hline (Bool.and_eq_true_iff.2 ⟨hfirst, by rwa [← hnames hfirst]⟩)
    simp only [ahead?, hline', Bool.false_eq_true, if_false]
    exact hread t' _ hends (Nat.lt_succ_self _)

theorem Alike.names_eq {t t' : List Char} (h : Alike t t') (gap : List Char) :
    (Text.after? ['#', '!'] (gap ++ t')).isSome = (Text.after? ['#', '!'] (gap ++ t)).isSome :=
  (h.append gap).after?_isSome (by decide) (by decide)

theorem ahead?_alike {first : Bool} {gap t t' : List Char} (h : ahead? first (gap ++ t) = some t) (ht : t ≠ [])
    (hlike : Alike t t') : ahead? first (gap ++ t') = some t' := by
  obtain ⟨hstops, gap', hgap, hskips⟩ := ahead?_skips h
  obtain rfl : gap = gap' := List.append_cancel_right hgap
  obtain ⟨fuel, -, hskip⟩ := hskips t' hlike.endsLine fun _ => hlike.names_eq gap
  rw [hskip, hstops.skipBlanks_alike ht hlike fuel]

theorem skipBlanks_eq_ahead? {fuel : Nat} {s : List Char} (hfuel : s.length < fuel) :
    skipBlanks fuel s = ahead? false s := by
  simp only [ahead?, Bool.false_and, Bool.false_eq_true, if_false]
  exact skipBlanks_fuel hfuel (Nat.lt_succ_self _)

theorem ahead?_blank {c : Char} (hblank : isBlank c = true) (s : List Char) :
    ahead? false (c :: s) = ahead? false s := by
  have hslash : c ≠ '/' := by
    rintro rfl
    exact absurd hblank (by decide)
  rw [← skipBlanks_eq_ahead? (Nat.lt_succ_self _), skipBlanks_cons _ (fun hc => absurd hc hslash), if_pos hblank]
  exact skipBlanks_eq_ahead? (by simp)

theorem ahead?_line (s : List Char) : ahead? false ('/' :: '/' :: s) = ahead? false (skipLine s) := by
  have hshort : (skipLine s).length ≤ s.length := (List.dropWhile_sublist _).length_le
  rw [← skipBlanks_eq_ahead? (Nat.lt_succ_self _), skipBlanks_succ]
  exact skipBlanks_eq_ahead? (by simp only [List.length_cons]; omega)

theorem ahead?_comment {s behind : List Char} (h : skipComment? s = some behind) :
    ahead? false ('/' :: '*' :: s) = ahead? false behind := by
  obtain ⟨comment, hs, -⟩ := skipComment?_local h
  rw [← skipBlanks_eq_ahead? (Nat.lt_succ_self _), skipBlanks_succ]
  simp only [h, Option.bind_some]
  exact skipBlanks_eq_ahead? (by simp only [hs, List.length_cons, List.length_append]; omega)

theorem next_of_ahead?_nil (signs : Bool) {cur : Cursor}
    (h : ahead? (cur.pos = 0) cur.rest = some []) : cur.next signs = none := by
  simp only [ahead?] at h
  simp only [Cursor.next, h]

theorem next_of_ahead?_cons (signs : Bool) {cur : Cursor} {c : Char} {rest after : List Char}
    {kind : Kind} {braces : List Bool} (h : ahead? (cur.pos = 0) cur.rest = some (c :: rest))
    (hscan : scanToken signs cur.braces cur.afterExpression c rest = (kind, after, braces)) :
    cur.next signs =
      some (⟨kind, ⟨cur.pos + byteLength cur.rest - byteLength (c :: rest),
          cur.pos + byteLength cur.rest - byteLength after⟩⟩,
        ⟨after, cur.pos + byteLength cur.rest - byteLength after, braces, kind.endsExpression⟩) := by
  simp only [ahead?] at h
  simp only [Cursor.next, h, hscan]

theorem next_of_ahead?_none (signs : Bool) {cur : Cursor} (h : ahead? (cur.pos = 0) cur.rest = none) :
    ∃ span cur', cur.next signs = some (⟨.invalid .comment, span⟩, cur') := by
  simp only [ahead?] at h
  simp only [Cursor.next, h]
  exact ⟨_, _, rfl⟩

/-! ### What the scanner reads -/

/-- The scanner reads the lexemes and then only blanks and comments. -/
inductive Reads (signs : Bool) : Bool → List Bool → Bool → List Lexeme → List Char → Prop
  | nil {first : Bool} {braces : List Bool} {afterExpression : Bool} {tail : List Char}
      (h : ahead? first tail = some []) : Reads signs first braces afterExpression [] tail
  | cons {first : Bool} {braces braces' : List Bool} {afterExpression : Bool} {gap w : List Char}
      {c : Char} {kind : Kind} {xs : List Lexeme} {tail : List Char} (hkind : kind.Readable)
      (hgap : ahead? first (gap ++ c :: (w ++ spell xs tail)) = some (c :: (w ++ spell xs tail)))
      (hscan : scanToken signs braces afterExpression c (w ++ spell xs tail) =
        (kind, spell xs tail, braces'))
      (hrest : Reads signs false braces' kind.endsExpression xs tail) :
      Reads signs first braces afterExpression (⟨gap, c :: w, kind⟩ :: xs) tail

theorem byteLength_pos (c : Char) (s : List Char) : 0 < byteLength (c :: s) := by
  have := c.utf8Size_pos
  rw [Text.byteLength_cons]
  omega

/-- Each lexeme that is read has characters of its own. -/
theorem Reads.byteLength_text {signs first afterExpression : Bool} {braces : List Bool}
    {xs : List Lexeme} {tail : List Char} (h : Reads signs first braces afterExpression xs tail) :
    ∀ x ∈ xs, 0 < byteLength x.text := by
  induction h with
  | nil => simp
  | cons _ _ _ _ ih =>
    intro x hx
    rcases List.mem_cons.mp hx with rfl | hx
    · exact byteLength_pos _ _
    · exact ih x hx

theorem Reads.readable {signs first afterExpression : Bool} {braces : List Bool} {xs : List Lexeme}
    {tail : List Char} (h : Reads signs first braces afterExpression xs tail) :
    ∀ x ∈ xs, x.kind.Readable := by
  induction h with
  | nil => simp
  | cons hkind _ _ _ ih =>
    intro x hx
    rcases List.mem_cons.mp hx with rfl | hx
    · exact hkind
    · exact ih x hx

/-- The next token of a cursor, with the bytes counted from where it stands. -/
theorem next_eq {signs : Bool} {cur : Cursor} {gap w after : List Char} {c : Char} {kind : Kind}
    {braces : List Bool} (hrest : cur.rest = gap ++ c :: (w ++ after))
    (hahead : ahead? (cur.pos = 0) cur.rest = some (c :: (w ++ after)))
    (hscan : scanToken signs cur.braces cur.afterExpression c (w ++ after) = (kind, after, braces)) :
    cur.next signs =
      some (⟨kind, ⟨cur.pos + byteLength gap, cur.pos + (byteLength gap + byteLength (c :: w))⟩⟩,
        ⟨after, cur.pos + (byteLength gap + byteLength (c :: w)), braces, kind.endsExpression⟩) := by
  have hstart : cur.pos + byteLength cur.rest - byteLength (c :: (w ++ after)) =
      cur.pos + byteLength gap := by
    rw [hrest, Text.byteLength_append]
    omega
  have hstop : cur.pos + byteLength cur.rest - byteLength after =
      cur.pos + (byteLength gap + byteLength (c :: w)) := by
    rw [hrest, ← List.cons_append, Text.byteLength_append, Text.byteLength_append]
    omega
  rw [next_of_ahead?_cons signs hahead hscan, hstart, hstop]

/-- From a cursor on, tokens that can all be read are those of lexemes. -/
theorem exists_reads_tokens {signs : Bool} {fuel : Nat} {cur : Cursor}
    (hfuel : cur.rest.length < fuel) (h : ∀ t ∈ cur.tokens signs fuel, t.kind.Readable) :
    ∃ xs tail, cur.rest = spell xs tail ∧
      Reads signs (cur.pos = 0) cur.braces cur.afterExpression xs tail ∧
      cur.tokens signs fuel = tokensFrom cur.pos xs := by
  induction fuel generalizing cur with
  | zero => omega
  | succ fuel ih =>
    cases hahead : ahead? (cur.pos = 0) cur.rest with
    | none =>
      obtain ⟨span, cur', hnext⟩ := next_of_ahead?_none signs hahead
      simp only [Cursor.tokens, hnext] at h
      exact absurd rfl (h _ (List.mem_cons_self ..) .comment)
    | some s =>
      obtain ⟨-, gap, hrest, -⟩ := ahead?_skips hahead
      cases s with
      | nil =>
        refine ⟨[], cur.rest, rfl, .nil hahead, ?_⟩
        simp only [Cursor.tokens, next_of_ahead?_nil signs hahead, tokensFrom_nil]
      | cons c rest =>
        rcases hscan : scanToken signs cur.braces cur.afterExpression c rest with ⟨kind, after, braces⟩
        have hkind : kind.Readable := by
          simp only [Cursor.tokens, next_of_ahead?_cons signs hahead hscan] at h
          exact h _ (List.mem_cons_self ..)
        obtain ⟨w, rfl, -⟩ := scanToken_local hkind hscan
        have hpos := byteLength_pos c w
        simp only [Cursor.tokens, next_eq hrest hahead hscan] at h ⊢
        have hshort : after.length < fuel := by
          simp only [hrest, List.length_append, List.length_cons] at hfuel
          omega
        obtain ⟨xs, tail, rfl, hreads, htokens⟩ := ih hshort fun t ht => h t (List.mem_cons_of_mem _ ht)
        refine ⟨⟨gap, c :: w, kind⟩ :: xs, tail, hrest, ?_, ?_⟩
        · refine .cons hkind (hrest ▸ hahead) hscan ?_
          have hfirst : decide (cur.pos + (byteLength gap + byteLength (c :: w)) = 0) = false :=
            decide_eq_false (by omega)
          simpa only [hfirst] using hreads
        · rw [htokens, tokensFrom_cons, Lexeme.size]

/-- The tokens of a source that reads as lexemes are those of the lexemes. -/
theorem Reads.tokens_eq {signs first afterExpression : Bool} {braces : List Bool} {xs : List Lexeme}
    {tail : List Char} (h : Reads signs first braces afterExpression xs tail) {pos fuel : Nat}
    (hfirst : first = decide (pos = 0)) (hfuel : (spell xs tail).length < fuel) :
    Cursor.tokens signs fuel ⟨spell xs tail, pos, braces, afterExpression⟩ = tokensFrom pos xs := by
  induction h generalizing pos fuel with
  | nil h =>
    subst hfirst
    cases fuel with
    | zero => omega
    | succ fuel => rw [Cursor.tokens, next_of_ahead?_nil signs h, tokensFrom_nil]
  | @cons first braces braces' afterExpression gap w c kind xs tail hkind hgap hscan hrest ih =>
    subst hfirst
    cases fuel with
    | zero => omega
    | succ fuel =>
      have hpos := byteLength_pos c w
      rw [Cursor.tokens, next_eq rfl hgap hscan]
      simp only [spell_cons, List.length_append, List.length_cons] at hfuel
      simp only [tokensFrom_cons, Lexeme.size]
      rw [ih (decide_eq_false (by omega)).symm (by omega)]

/-! ### Gaps -/

/-- A gap that is skipped before everything and that begins with a blank. -/
structure Separates (ins : List Char) : Prop where
  blank : ∃ b rest, ins = b :: rest ∧ b ∈ [' ', '\n', '\r']
  skipped : ∀ s, ahead? false (ins ++ s) = ahead? false s

/-- What follows is read the same behind more of a gap. -/
theorem Reads.behind {signs afterExpression : Bool} {braces : List Bool} {ys : List Lexeme} {tail ins : List Char}
    (h : Reads signs false braces afterExpression ys tail) (hins : Separates ins) :
    ∃ zs tail', spell zs tail' = ins ++ spell ys tail ∧ Reads signs false braces afterExpression zs tail' ∧
      ∀ pos, tokensFrom pos zs = tokensFrom (pos + byteLength ins) ys := by
  cases h with
  | nil h => exact ⟨[], ins ++ tail, rfl, .nil (by rw [hins.skipped, h]), fun pos => rfl⟩
  | @cons _ _ braces' _ gap w c kind xs _ hkind hgap hscan hrest =>
    refine ⟨⟨ins ++ gap, c :: w, kind⟩ :: xs, tail, by simp, .cons hkind ?_ hscan hrest, fun pos => ?_⟩
    · rw [List.append_assoc, hins.skipped, hgap]
    · simp only [tokensFrom_cons, Lexeme.size, Text.byteLength_append]
      ac_rfl

/-! ### The tokens of a whole source -/

/-- The lexemes that a source reads as. -/
def ReadsAs (source : List Char) (xs : List Lexeme) (tail : List Char) : Prop :=
  source = spell xs tail ∧ Reads (Text.after? ['0', 'x'] source).isNone true [] false xs tail

theorem exists_readsAs {source : List Char} (h : ∀ t ∈ scan source, t.kind.Readable) :
    ∃ xs tail, ReadsAs source xs tail := by
  obtain ⟨xs, tail, hsource, hreads, -⟩ :=
    exists_reads_tokens (Nat.lt_succ_self (Cursor.start source).rest.length) h
  exact ⟨xs, tail, hsource, hreads⟩

theorem ReadsAs.scan_eq {source : List Char} {xs : List Lexeme} {tail : List Char}
    (h : ReadsAs source xs tail) : scan source = tokensFrom 0 xs := by
  obtain ⟨hsource, hreads⟩ := h
  have hfuel : (spell xs tail).length < source.length + 1 := by rw [← hsource]; omega
  have htokens := hreads.tokens_eq (decide_eq_true rfl).symm hfuel
  rw [← hsource] at htokens
  exact htokens

/-- A check of every element that passes each one on or fails. -/
theorem mapM_ok_iff {α ε : Type} {p : α → Prop} {f : α → Except ε α}
    (hpass : ∀ a, p a → f a = .ok a) (hfail : ∀ a, ¬p a → ∃ e, f a = .error e) {l ts : List α} :
    l.mapM f = .ok ts ↔ ts = l ∧ ∀ a ∈ l, p a := by
  induction l generalizing ts with
  | nil =>
    refine ⟨fun h => ?_, ?_⟩
    · cases h
      exact ⟨rfl, by simp⟩
    · rintro ⟨rfl, -⟩
      rfl
  | cons a l ih =>
    rw [List.mapM_cons]
    by_cases ha : p a
    · cases hl : l.mapM f with
      | error e =>
        simp only [hpass a ha, bind, Except.bind, reduceCtorEq, false_iff, not_and]
        intro _ hall
        have := ih.mpr ⟨rfl, fun b hb => hall b (List.mem_cons_of_mem a hb)⟩
        rw [hl] at this
        cases this
      | ok ts' =>
        obtain ⟨rfl, hall⟩ := ih.mp hl
        simp only [hpass a ha, bind, Except.bind, pure, Except.pure, Except.ok.injEq]
        refine ⟨fun h => ⟨h.symm, List.forall_mem_cons.mpr ⟨ha, hall⟩⟩, fun h => h.1.symm⟩
    · obtain ⟨e, he⟩ := hfail a ha
      simp only [he, bind, Except.bind, reduceCtorEq, false_iff, not_and]
      exact fun _ hall => ha (hall a (List.mem_cons_self ..))

/-- The tokens of a source are those of the scan, when each of them can be read. -/
theorem tokens_ok_iff {id : String} {source : List Char} {ts : List Token} :
    tokens id source = .ok ts ↔ ts = scan source ∧ ∀ t ∈ scan source, t.kind.Readable := by
  refine mapM_ok_iff (p := fun (t : Token) => t.kind.Readable) (fun t ht => ?_) fun t ht => ?_
  · split
    · next reason hinvalid => exact absurd hinvalid (ht reason)
    · rfl
  · split
    · exact ⟨_, rfl⟩
    · next hvalid => exact absurd (fun reason hinvalid => hvalid reason hinvalid) ht

/-- The tokens of a source that reads as lexemes. -/
theorem ReadsAs.tokens_eq {source : List Char} {xs : List Lexeme} {tail : List Char}
    (h : ReadsAs source xs tail) (id : String) : tokens id source = .ok (tokensFrom 0 xs) := by
  rw [tokens_ok_iff, h.scan_eq]
  refine ⟨rfl, fun t ht => ?_⟩
  have hkinds : t.kind ∈ (tokensFrom 0 xs).map Token.kind := List.mem_map_of_mem ht
  rw [map_kind_tokensFrom] at hkinds
  obtain ⟨x, hx, hkind⟩ := List.mem_map.mp hkinds
  exact hkind ▸ h.2.readable x hx

end ScriptVault.Script
