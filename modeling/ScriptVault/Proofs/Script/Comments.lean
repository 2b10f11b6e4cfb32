import ScriptVault.Proofs.Script.Splice
import ScriptVault.Proofs.Script.Moved
import ScriptVault.Proofs.Script.Statements

/-!
# Comments — what is put between two tokens

A comment behind a token is skipped with the gap that it stands in (`Separates`), and all tokens before it are read
as they were: none of them took in what follows now, and none looks further than one character behind the next
(`Parted`).  So no comment makes or hides a token, whatever its text and wherever it stands, in a substitution of a
template too, and the calls are those that were there.
-/

namespace ScriptVault.Script

open Text (byteLength isBlank isIdContinue)

/-! ### Comments -/

/-- The ends of a line. -/
def lineEnds : List (List Char) := [['\n'], ['\r'], ['\r', '\n']]

/-- A comment that is set off from what stands around it: between slashes and stars with a blank on either side, or on
a line of its own.  Its text is any in which it does not end. -/
inductive Comment : List Char → Prop
  | block {text : List Char} (htext : ¬['*', '/'] <:+: text) :
      Comment ([' ', '/', '*'] ++ text ++ ['*', '/', ' '])
  | line {before behind text : List Char} (hbefore : before ∈ lineEnds) (hbehind : behind ∈ lineEnds)
      (htext : ∀ c ∈ text, c ≠ '\n' ∧ c ≠ '\r') :
      Comment (before ++ ['/', '/'] ++ text ++ behind)

theorem skipComment?_append {text : List Char} (htext : ¬['*', '/'] <:+: text) (s : List Char) :
    skipComment? (text ++ '*' :: '/' :: s) = some s := by
  induction text with
  | nil => rfl
  | cons c text ih =>
    rw [List.cons_append, skipComment?]
    · exact ih fun hpart => htext (hpart.trans (List.suffix_cons c text).isInfix)
    · rintro rest rfl heq
      -- a star and a slash here would be two characters of the text
      cases text with
      | nil => cases heq
      | cons d text =>
        obtain ⟨rfl, -⟩ := List.cons.inj heq
        exact htext ⟨[], text, rfl⟩

theorem skipLine_append {text s : List Char} (htext : ∀ c ∈ text, c ≠ '\n' ∧ c ≠ '\r')
    (hs : s.head?.any inLine = false) : skipLine (text ++ s) = s := by
  have hall : ∀ c ∈ text, inLine c = true := fun c hc => by simp [inLine, htext c hc]
  have htake : text.takeWhile inLine = text := List.takeWhile_eq_self_iff.2 hall
  have hdrop := (takeWhile_local text hs).2
  rwa [htake] at hdrop

theorem lineEnds_blank {br : List Char} (h : br ∈ lineEnds) :
    ∃ b rest, br = b :: rest ∧ b ∈ [' ', '\n', '\r'] ∧ inLine b = false ∧ ∀ c ∈ br, isBlank c = true := by
  simp only [lineEnds, List.mem_cons, List.not_mem_nil, or_false] at h
  rcases h with rfl | rfl | rfl
  · exact ⟨_, _, rfl, by decide, rfl, List.all_eq_true.1 (by decide)⟩
  · exact ⟨_, _, rfl, by decide, rfl, List.all_eq_true.1 (by decide)⟩
  · exact ⟨_, _, rfl, by decide, rfl, List.all_eq_true.1 (by decide)⟩

theorem ahead?_blanks {br : List Char} (h : ∀ c ∈ br, isBlank c = true) (s : List Char) :
    ahead? false (br ++ s) = ahead? false s := by
  induction br with
  | nil => rfl
  | cons c br ih =>
    obtain ⟨hc, hbr⟩ := List.forall_mem_cons.1 h
    rw [List.cons_append, ahead?_blank hc, ih hbr]

theorem Comment.separates {ins : List Char} (h : Comment ins) : Separates ins := by
  cases h with
  | @block text htext =>
    refine ⟨⟨_, _, rfl, by decide⟩, fun s => ?_⟩
    simp only [List.append_assoc, List.cons_append, List.nil_append]
    rw [ahead?_blank (by decide), ahead?_comment (skipComment?_append htext _), ahead?_blank (by decide)]
  | @line before behind text hbefore hbehind htext =>
    obtain ⟨b, rest, rfl, hb, -, hblanks⟩ := lineEnds_blank hbefore
    obtain ⟨b', rest', rfl, -, hends, hblanks'⟩ := lineEnds_blank hbehind
    refine ⟨⟨_, _, rfl, hb⟩, fun s => ?_⟩
    have hskip : skipLine (text ++ (b' :: rest' ++ s)) = b' :: rest' ++ s := skipLine_append htext hends
    simp only [List.append_assoc, List.cons_append, List.nil_append] at hskip ⊢
    rw [← List.cons_append, ahead?_blanks hblanks, ahead?_line, hskip, ← List.cons_append, ahead?_blanks hblanks']

/-! ### Tokens before it -/

/-- A blank that separates is in no token and opens no comment. -/
theorem separator_spec {b : Char} (hb : b ∈ [' ', '\n', '\r']) :
    isIdContinue b = false ∧ b.isAlphanum = false ∧ b.isDigit = false ∧ opensComment b = false ∧
      b ∉ ['_', '.', '+', '-', 'x', '!'] := by
  simp only [List.mem_cons, List.not_mem_nil, or_false] at hb
  rcases hb with rfl | rfl | rfl <;> decide

theorem Separates.closes {ins : List Char} (h : Separates ins) (s t : List Char) : Closes t (ins ++ s) := by
  obtain ⟨b, rest, rfl, hb⟩ := h.blank
  obtain ⟨hword, halphanum, hdigit, -, hsign⟩ := separator_spec hb
  simp only [List.mem_cons, List.not_mem_nil, or_false, not_or] at hsign
  refine ⟨fun _ => hword, fun signs previous _ => ?_, fun _ => hdigit, fun hdot _ => ?_⟩
  · simp [dropNumber, halphanum, hsign]
  · exact absurd (Option.some.inj hdot) hsign.2.1

/-- Two texts with the same character in front, and with the same character behind that or a blank in the one where
a token ends in the other. -/
inductive Parted : List Char → List Char → Prop
  | same (c : Char) {s s' : List Char} (h : s'.head? = s.head?) : Parted (c :: s) (c :: s')
  | blank {c b : Char} {s s' : List Char} (hb : b ∈ [' ', '\n', '\r']) (hdot : c = '.' → digitNext s = false)
      (hzero : c = '0' → s.head? ≠ some 'x') : Parted (c :: s) (c :: b :: s')

namespace Parted

variable {s s' : List Char}

theorem head?_eq (h : Parted s s') : s'.head? = s.head? := by
  cases h <;> rfl

theorem append (w : List Char) (h : Parted s s') : Parted (w ++ s) (w ++ s') := by
  cases w with
  | nil => exact h
  | cons c w =>
    refine .same c ?_
    cases w with
    | nil => exact h.head?_eq
    | cons d w => rfl

theorem closes (h : Parted s s') : Closes s s' where
  word := by rw [h.head?_eq]; exact id
  number signs previous hstop := by
    cases h <;> rw [dropNumber, if_neg (not_inNumber hstop)]
  digit := by rw [digitNext, digitNext, h.head?_eq]; exact id
  dot hdot hdigit := by
    rw [h.head?_eq] at hdot
    refine ⟨hdot, ?_⟩
    cases h with
    | same c h => rwa [List.tail_cons, digitNext, h] at hdigit
    | blank hb hdot' _ => exact hdot' (by simpa using hdot)

theorem skipBlanks_eq (h : Parted s s') (hs : Stops s) (fuel : Nat) : skipBlanks fuel s' = some s' := by
  cases h with
  | same c h => exact skipBlanks_stop (hs c _ rfl).1 (fun hc => by rw [h]; exact (hs c _ rfl).2 hc) fuel
  | @blank c b s s' hb hdot hzero =>
    obtain ⟨-, -, -, hopens, -⟩ := separator_spec hb
    refine skipBlanks_stop (hs _ _ rfl).1 (fun _ => ?_) fuel
    rwa [List.head?_cons, Option.any_some]

theorem hexadecimal_iff (h : Parted s s') :
    (Text.after? ['0', 'x'] s').isSome = true ↔ (Text.after? ['0', 'x'] s).isSome = true := by
  rw [after?_pair_iff, after?_pair_iff, h.head?_eq]
  refine and_congr_right fun hzero => ?_
  cases h with
  | same c h => rw [List.tail_cons, List.tail_cons, h]
  | blank hb hdot hx =>
    refine iff_of_false ?_ (hx (by simpa using hzero))
    rintro hb'
    obtain rfl := Option.some.inj hb'
    simp at hb

/-- A text does not begin to name an interpreter. -/
theorem names_false (h : Parted s s') (hs : (Text.after? ['#', '!'] s).isSome = false) :
    (Text.after? ['#', '!'] s').isSome = false := by
  rw [← Bool.not_eq_true, after?_pair_iff] at hs ⊢
  rw [h.head?_eq]
  refine fun hnames => hs ⟨hnames.1, ?_⟩
  cases h with
  | same c h => exact h ▸ hnames.2
  | blank hb hdot hx =>
    obtain rfl := Option.some.inj hnames.2
    simp at hb

end Parted

/-- What the first line's name of an interpreter is skipped with is not the name. -/
theorem names_false_of_ahead? {s : List Char} (h : ahead? true s = some s) :
    (Text.after? ['#', '!'] s).isSome = false := by
  rw [← Bool.not_eq_true]
  intro hnames
  obtain ⟨line, hline⟩ := Option.isSome_iff_exists.1 hnames
  obtain rfl := Text.after?_eq_some_iff.1 hline
  have hshort : (skipLine (['#', '!'] ++ line)).length ≤ line.length :=
    List.Sublist.length_le (show List.Sublist (skipLine line) line from List.dropWhile_sublist _)
  simp only [ahead?, hnames, Bool.and_self, if_true] at h
  obtain ⟨-, w, hw, -⟩ := skipBlanks_skips (Nat.lt_succ_self _) h
  rw [hw] at hshort
  simp only [List.length_append, List.length_cons, List.length_nil] at hshort
  omega

/-- A gap is skipped up to the same token. -/
theorem ahead?_parted {first : Bool} {gap s s' : List Char} (h : ahead? first (gap ++ s) = some s) (hp : Parted s s') :
    ahead? first (gap ++ s') = some s' := by
  obtain ⟨hstops, gap', hgap, hskips⟩ := ahead?_skips h
  obtain rfl : gap = gap' := List.append_cancel_right hgap
  obtain ⟨fuel, -, hskip⟩ := hskips s' (by rw [EndsLine, hp.head?_eq]; exact id) fun hfirst => by
    subst hfirst
    cases gap with
    | nil =>
      have hnone : (Text.after? ['#', '!'] s).isSome = false := names_false_of_ahead? h
      rw [List.nil_append, List.nil_append, hnone, hp.names_false hnone]
    | cons c gap =>
      rw [Bool.eq_iff_iff, after?_pair_iff, after?_pair_iff]
      cases gap with
      | nil => simp [hp.head?_eq]
      | cons d gap => simp
  rw [hskip, hp.skipBlanks_eq hstops]

/-! ### Reading past it -/

section Reads

variable {signs first afterExpression : Bool} {braces braces' : List Bool} {xs ys : List Lexeme} {tail after : List Char}
  {kind : Kind} {ins : List Char}

/-- A token of one character that is a dot has no digit behind it, and one that is a zero no letter. -/
theorem scanToken_single {c : Char} (h : scanToken signs braces afterExpression c after = (kind, after, braces')) :
    (c = '.' → digitNext after = false) ∧ (c = '0' → after.head? ≠ some 'x') := by
  constructor
  · rintro rfl
    by_contra hdigit
    rw [Bool.not_eq_false] at hdigit
    simp only [scanToken, if_pos hdigit, Prod.mk.injEq] at h
    cases after with
    | nil => cases hdigit
    | cons d after =>
      have hd : d.isDigit = true := by simpa [digitNext] using hdigit
      exact not_inNumber h.2.1 (by simp [Char.isAlphanum, hd])
  · rintro rfl hx
    rw [scanToken_other (by decide), if_neg (by simp), if_pos (by decide), Prod.mk.injEq, Prod.mk.injEq] at h
    cases after with
    | nil => cases hx
    | cons d after =>
      obtain rfl := Option.some.inj hx
      exact not_inNumber h.2.1 (by simp)

/-- What begins with some tokens is read the same up to the end of the last of them, and then behind a comment. -/
theorem Reads.parted {x : Lexeme} (h : Reads signs first braces afterExpression (x :: xs ++ ys) tail)
    (hins : Separates ins) :
    ∃ zs tail', spell zs tail' = ins ++ spell ys tail ∧
      (∀ pos, tokensFrom pos zs = tokensFrom (pos + byteLength ins) ys) ∧
      Reads signs first braces afterExpression (x :: xs ++ zs) tail' ∧
      Parted (spell (x :: xs ++ ys) tail) (spell (x :: xs ++ zs) tail') := by
  induction xs generalizing x first braces afterExpression with
  | nil =>
    cases h with
    | @cons _ _ braces' _ gap w c kind _ _ hkind hgap hscan hrest =>
      obtain ⟨zs, tail', hspell, hreads, htokens⟩ := hrest.behind hins
      have hparted : Parted (c :: (w ++ spell ys tail)) (c :: (w ++ spell zs tail')) := by
        cases w with
        | nil =>
          obtain ⟨b, rest, rfl, hb⟩ := hins.blank
          obtain ⟨hdot, hzero⟩ := scanToken_single hscan
          rw [hspell]
          exact .blank hb hdot hzero
        | cons d w => exact .same c rfl
      have hcloses : Closes (spell ys tail) (spell zs tail') := hspell ▸ hins.closes _ _
      exact ⟨zs, tail', hspell, htokens, .cons hkind (ahead?_parted hgap hparted)
        (scanToken_closes hkind hscan hcloses) hreads, hparted.append gap⟩
  | cons y xs ih =>
    cases h with
    | @cons _ _ braces' _ gap w c kind _ _ hkind hgap hscan hrest =>
      obtain ⟨zs, tail', hspell, htokens, hreads, hparted⟩ := ih hrest
      have hparted' := hparted.append (c :: w)
      exact ⟨zs, tail', hspell, htokens, .cons hkind (ahead?_parted hgap hparted')
        (scanToken_closes hkind hscan hparted.closes) hreads, hparted'.append gap⟩

end Reads

/-! ### Sources -/

/-- A text put in at a byte. -/
def insertAt (n : Nat) (ins source : List Char) : List Char :=
  (splitBytes n source).1 ++ ins ++ (splitBytes n source).2

/-- A span when some bytes are put in: it is as much further on if it starts there or later. -/
def Span.parted (byte n : Nat) (span : Span) : Span := if byte ≤ span.start then span.shifted n else span

theorem insertAt_spell (xs : List Lexeme) (ins rest : List Char) :
    insertAt (byteLength (spell xs [])) ins (spell xs rest) = spell xs (ins ++ rest) := by
  have happend (rest : List Char) : spell xs rest = spell xs [] ++ rest := spell_append_tail xs [] rest
  rw [happend rest, insertAt, splitBytes_append, happend (ins ++ rest), List.append_assoc]

theorem ReadsAs.parted {source ins : List Char} {x : Lexeme} {xs ys : List Lexeme} {tail : List Char}
    (h : ReadsAs source (x :: xs ++ ys) tail) (hins : Separates ins) :
    ∃ zs tail', ReadsAs (insertAt (byteLength (spell (x :: xs) [])) ins source) (x :: xs ++ zs) tail' ∧
      ∀ pos, tokensFrom pos zs = tokensFrom (pos + byteLength ins) ys := by
  obtain ⟨rfl, hreads⟩ := h
  obtain ⟨zs, tail', hspell, htokens, hreads', hparted⟩ := hreads.parted hins
  have hinsert : insertAt (byteLength (spell (x :: xs) [])) ins (spell (x :: xs ++ ys) tail) =
      spell (x :: xs ++ zs) tail' := by
    rw [spell_append, insertAt_spell, spell_append, hspell]
  have hsame : (Text.after? ['0', 'x'] (spell (x :: xs ++ zs) tail')).isNone =
      (Text.after? ['0', 'x'] (spell (x :: xs ++ ys) tail)).isNone := by
    rw [← Option.not_isSome, ← Option.not_isSome, Bool.eq_iff_iff.2 hparted.hexadecimal_iff]
  refine ⟨zs, tail', ⟨hinsert, ?_⟩, htokens⟩
  rw [hinsert, hsame]
  exact hreads'

theorem start_lt_of_mem {xs : List Lexeme} (hxs : Solid xs) {pos : Nat} {token : Token}
    (h : token ∈ tokensFrom pos xs) : token.span.start < pos + byteLength (spell xs []) := by
  induction xs generalizing pos with
  | nil => cases h
  | cons x xs ih =>
    simp only [spell_cons, Text.byteLength_append]
    rcases List.mem_cons.1 h with rfl | h
    · have hx := hxs x (List.mem_cons_self ..)
      simp only
      omega
    · have := ih hxs.tail h
      rw [Lexeme.size] at this
      omega

/-- The tokens of some lexemes up to one of them. -/
theorem exists_split_of_mem {pos : Nat} {xs : List Lexeme} {token : Token} (h : token ∈ tokensFrom pos xs) :
    ∃ x front behind, xs = x :: front ++ behind ∧ token.span.stop = pos + byteLength (spell (x :: front) []) := by
  induction xs generalizing pos with
  | nil => cases h
  | cons x xs ih =>
    rcases List.mem_cons.1 h with rfl | h
    · exact ⟨x, [], xs, rfl, by simp [Lexeme.size]⟩
    · obtain ⟨y, front, behind, rfl, hstop⟩ := ih h
      refine ⟨x, y :: front, behind, rfl, ?_⟩
      simp only [hstop, spell_cons, Text.byteLength_append, Lexeme.size]
      omega

/-- The tokens of lexemes between which some bytes were put in. -/
theorem tokensFrom_parted {xs ys zs : List Lexeme} {n : Nat} (hxs : Solid xs)
    (hzs : ∀ pos, tokensFrom pos zs = tokensFrom (pos + n) ys) :
    tokensFrom 0 (xs ++ zs) =
      (tokensFrom 0 (xs ++ ys)).map (Token.respan (Span.parted (byteLength (spell xs [])) n)) := by
  rw [tokensFrom_append, tokensFrom_append, List.map_append, hzs, tokensFrom_shifted]
  have hbefore : (tokensFrom 0 xs).map (Token.respan (Span.parted (byteLength (spell xs [])) n)) = tokensFrom 0 xs := by
    refine (List.map_congr_left fun token htoken => ?_).trans (List.map_id _)
    have hstart := start_lt_of_mem hxs htoken
    rw [Token.respan, Span.parted, if_neg (by omega), id]
  rw [hbefore]
  refine congrArg _ (List.map_congr_left fun token htoken => ?_)
  have hstart := le_start_of_mem htoken
  rw [Token.respan, Token.respan, Span.parted, if_pos (by omega)]

/-- A comment behind a token makes no token and hides none: the tokens are those that were there, and the calls too,
with those that stand behind it as much further on as it is long. -/
theorem comments_inert {id : String} {source ins : List Char} {ts : List Token} {token : Token}
    (htokens : tokens id source = .ok ts) (htoken : token ∈ ts) (hins : Comment ins) :
    tokens id (insertAt token.span.stop ins source) =
        .ok (ts.map (Token.respan (Span.parted token.span.stop (byteLength ins)))) ∧
      ∃ found, calls id source = .ok found ∧
        calls id (insertAt token.span.stop ins source) =
          .ok (found.map (Call.respan (Span.parted token.span.stop (byteLength ins)))) := by
  obtain ⟨rfl, hkinds⟩ := tokens_ok_iff.1 htokens
  obtain ⟨xs, tail, hreads⟩ := exists_readsAs hkinds
  rw [hreads.scan_eq] at htokens htoken ⊢
  obtain ⟨x, front, behind, rfl, hstop⟩ := exists_split_of_mem htoken
  obtain ⟨zs, tail', hparted, hzs⟩ := hreads.parted hins.separates
  have hfront : Solid (x :: front) := fun y hy =>
    hreads.2.byteLength_text y (List.mem_append_left _ hy)
  have htokens' := hparted.tokens_eq id
  rw [Nat.zero_add] at hstop
  rw [tokensFrom_parted hfront hzs, ← hstop] at htokens'
  refine ⟨htokens', _, by rw [calls, htokens]; rfl, ?_⟩
  rw [calls, htokens', Except.map, callsFrom_respan]

/-- A text with quotes, the beginning of a substitution and a call. -/
def commentText : List Char := " '\x60$\x7brequire('b') // ".toList

theorem comments_inert_template :
    (∃ ts, tokens "a" beforeSource = .ok ts ∧ ⟨.identifier "require", ⟨5, 12⟩⟩ ∈ ts) ∧
      Comment ([' ', '/', '*'] ++ commentText ++ ['*', '/', ' ']) ∧
      calls "a" "f(\x60$\x7brequire /* '\x60$\x7brequire('b') // */ ('a')\x7d\x60) // x".toList =
        .ok [⟨"a", ⟨5, 12⟩, ⟨40, 43⟩⟩] := by
  have htokens : tokens "a" beforeSource = .ok (scan beforeSource) := rfl
  have htoken : ⟨.identifier "require", ⟨5, 12⟩⟩ ∈ scan beforeSource := by decide +kernel
  have hins : Comment ([' ', '/', '*'] ++ commentText ++ ['*', '/', ' ']) := .block (by decide +kernel)
  refine ⟨⟨_, htokens, htoken⟩, hins, ?_⟩
  obtain ⟨-, found, hfound, hcalls⟩ := comments_inert htokens htoken hins
  have hone : calls "a" beforeSource = .ok [⟨"a", ⟨5, 12⟩, ⟨13, 16⟩⟩] := rfl
  obtain rfl : _ = found := Except.ok.inj (hone.symm.trans hfound)
  exact hcalls

end ScriptVault.Script
