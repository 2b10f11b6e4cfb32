import ScriptVault.Host.Require
import ScriptVault.Proofs.Script.Statements

/-!
# Trailer — the line that names a script's source

A script is checked without the line that names its source and run with it.  The line is a comment, but the name is
put into it as it is and the comment ends with the first line of the name.  So the script that is run has the tokens
that were checked exactly if the rest of the name is nothing but blanks and comments (`NamesOnly`).
-/

namespace ScriptVault.Script

/-- What the line behind a script names: the module under its root. -/
def sourceName (id root : String) : List Char :=
  root.toList ++ (if root.isEmpty || root.endsWith "/" then "" else "/").toList ++ id.toList

/-- Behind its first line the name has only blanks and comments. -/
def NamesOnly (id root : String) : Prop := ahead? false (skipLine (sourceName id root)) = some []

/-- The characters between the code and the name. -/
def sourceUrl : List Char := "# sourceURL=".toList

theorem withSourceUrl_toList (code id root : String) :
    (withSourceUrl code id root).toList = code.toList ++ '\n' :: '/' :: '/' :: (sourceUrl ++ sourceName id root) := by
  have hline : "\n//# sourceURL=".toList = '\n' :: '/' :: '/' :: sourceUrl := rfl
  simp only [withSourceUrl, sourceName, String.toList_append, hline, List.append_assoc, List.cons_append]

theorem skipLine_sourceUrl (name : List Char) : skipLine (sourceUrl ++ name) = skipLine name := rfl

/-- A name on one line stays in the comment. -/
theorem namesOnly_of_inLine {id root : String} (hid : ∀ c ∈ id.toList, inLine c = true)
    (hroot : ∀ c ∈ root.toList, inLine c = true) : NamesOnly id root := by
  have hname : ∀ c ∈ sourceName id root, inLine c = true := by
    intro c hc
    simp only [sourceName, List.mem_append] at hc
    rcases hc with (hc | hc) | hc
    · exact hroot c hc
    · split at hc
      · cases hc
      · obtain rfl : c = '/' := by simpa using hc
        decide
    · exact hid c hc
  have hskip : skipLine (sourceName id root) = [] := List.dropWhile_eq_nil_iff.2 hname
  rw [NamesOnly, hskip]
  rfl

section Reads

variable {signs first afterExpression : Bool} {braces : List Bool} {xs zs : List Lexeme} {tail tail' rest : List Char}

/-- What is read to its end is read the same when the next line has nothing to read. -/
theorem Reads.extended (h : Reads signs first braces afterExpression xs tail) (hrest : ahead? false rest = some []) :
    Reads signs first braces afterExpression xs (tail ++ '\n' :: rest) := by
  induction h with
  | nil h => exact .nil (by rw [ahead?_newline h, hrest])
  | @cons first braces braces' afterExpression gap w c kind xs tail hkind hgap hscan _ ih =>
    have hlike : Alike (spell xs tail) (spell xs (tail ++ '\n' :: rest)) := by
      rw [spell_append_tail]
      exact .extended ..
    exact .cons hkind (ahead?_alike hgap (by simp) ((hlike.append w).cons c))
      (scanToken_closes hkind hscan hlike.closes) ih

/-- A source that reads as many tokens when it goes on with another line has nothing to read there. -/
theorem Reads.ahead?_eq (h : Reads signs first braces afterExpression xs tail)
    (h' : Reads signs first braces afterExpression zs tail') (hspell : spell zs tail' = spell xs tail ++ '\n' :: rest)
    (hlength : zs.length = xs.length) : ahead? false rest = some [] := by
  induction h generalizing zs with
  | nil h =>
    cases h' with
    | nil h' =>
      rw [← ahead?_newline h rest]
      exact hspell ▸ h'
    | cons => cases hlength
  | @cons first braces braces' afterExpression gap w c kind xs tail hkind hgap hscan _ ih =>
    have hlike := Alike.extended (spell xs tail) rest
    cases h' with
    | nil => cases hlength
    | @cons _ _ braces'' _ gap'' w'' c'' kind'' zs _ hkind'' hgap'' hscan'' hrest'' =>
      -- the gap and the token are read as they were, and so is what follows them
      have hgap₁ := ahead?_alike hgap (by simp) ((hlike.append w).cons c)
      have hsource : gap'' ++ c'' :: (w'' ++ spell zs tail') = gap ++ c :: (w ++ (spell xs tail ++ '\n' :: rest)) := by
        simpa using hspell
      rw [hsource, hgap₁] at hgap''
      obtain ⟨rfl, hbody⟩ := List.cons.inj (Option.some.inj hgap'')
      rw [← hbody, scanToken_closes hkind hscan hlike.closes] at hscan''
      obtain ⟨rfl, hbehind, rfl⟩ : kind = kind'' ∧ _ = spell zs tail' ∧ braces' = braces'' := by simpa using hscan''
      exact ih hrest'' hbehind.symm (by simpa using hlength)

end Reads

/-- A source that goes on with another line has the tokens that it had exactly if there is nothing to read on it. -/
theorem tokens_extended_iff {id : String} {source rest : List Char} {ts : List Token}
    (htokens : tokens id source = .ok ts) :
    tokens id (source ++ '\n' :: rest) = .ok ts ↔ ahead? false rest = some [] := by
  obtain ⟨rfl, hkinds⟩ := tokens_ok_iff.1 htokens
  obtain ⟨xs, tail, hreads⟩ := exists_readsAs hkinds
  have hsigns := signsExponents_extended source rest
  constructor
  · intro hextended
    obtain ⟨hscan, hkinds'⟩ := tokens_ok_iff.1 hextended
    obtain ⟨zs, tail', hzs⟩ := exists_readsAs hkinds'
    have hlength : zs.length = xs.length := by
      have hsame := congrArg (fun ts => (ts.map Token.kind).length) hscan
      simpa [hzs.scan_eq, hreads.scan_eq, map_kind_tokensFrom] using hsame.symm
    have hreads' := hzs.2
    rw [← signsExponents, hsigns] at hreads'
    exact hreads.2.ahead?_eq hreads' (by rw [← hzs.1, ← hreads.1]) hlength
  · intro hrest
    have hextended : ReadsAs (source ++ '\n' :: rest) xs (tail ++ '\n' :: rest) := by
      refine ⟨by rw [spell_append_tail, ← hreads.1], ?_⟩
      rw [← signsExponents, hsigns]
      exact hreads.2.extended hrest
    rw [hreads.scan_eq]
    exact hextended.tokens_eq id

theorem exists_tokens_of_check {id : String} {source : List Char} (h : check id source = .ok ()) :
    ∃ ts, tokens id source = .ok ts := by
  cases htokens : tokens id source with
  | error failure => simp [check, htokens, bind, Except.bind] at h
  | ok ts => exact ⟨ts, rfl⟩

/-- The script that is run for a module has the tokens of the code that was checked exactly if the name of its source
has only blanks and comments behind its first line; then it has the same calls and passes the check too.  No name on
one line has anything there. -/
theorem trailer_inert {code id root : String} (hcheck : check id code.toList = .ok ()) :
    ∃ ts, tokens id code.toList = .ok ts ∧
      (tokens id (withSourceUrl code id root).toList = .ok ts ↔ NamesOnly id root) ∧
      ((∀ c ∈ id.toList, inLine c) → (∀ c ∈ root.toList, inLine c) → NamesOnly id root) ∧
      (NamesOnly id root → ∀ (settings : Settings) (resolved : Resolved), resolved.id = id → resolved.code = code →
        resolved.compiled = none → settings.sourceRoot = root →
          calls id (Host.scriptFor settings resolved).toList = calls id code.toList ∧
          check id (Host.scriptFor settings resolved).toList = .ok ()) := by
  obtain ⟨ts, htokens⟩ := exists_tokens_of_check hcheck
  have hiff : tokens id (withSourceUrl code id root).toList = .ok ts ↔ NamesOnly id root := by
    rw [withSourceUrl_toList, tokens_extended_iff htokens, ahead?_line, skipLine_sourceUrl, NamesOnly]
  refine ⟨ts, htokens, hiff, namesOnly_of_inLine, ?_⟩
  rintro hnames settings resolved rfl rfl hplain rfl
  have hsame := (hiff.2 hnames).trans htokens.symm
  rw [Host.scriptFor, hplain, Option.getD_none]
  refine ⟨by rw [calls, calls, hsame], ?_⟩
  rw [check, hsame]
  exact hcheck

/-- A module in the vault, with a comment that the end of its code closes. -/
def noteModule : Resolved := { id := "notes/a.js", code := "f(require('b')) // c" }

theorem trailer_inert_note :
    check noteModule.id noteModule.code.toList = .ok () ∧
      calls noteModule.id (Host.scriptFor {} noteModule).toList = .ok [⟨"b", ⟨2, 9⟩, ⟨10, 13⟩⟩] := by
  have hcheck : check noteModule.id noteModule.code.toList = .ok () := rfl
  obtain ⟨-, -, -, hnames, hscript⟩ := trailer_inert hcheck
  have hcalls := (hscript (hnames (List.all_eq_true.1 rfl) (List.all_eq_true.1 rfl)) {} noteModule rfl rfl rfl rfl).1
  have hone : calls noteModule.id noteModule.code.toList = .ok [⟨"b", ⟨2, 9⟩, ⟨10, 13⟩⟩] := rfl
  exact ⟨hcheck, hcalls.trans hone⟩

/-- A path may have more than one line, and a call on the second is run. -/
theorem second_line_runs :
    ¬ ∀ code id root : String, check id code.toList = .ok () → Path.fold id = id →
      calls id (withSourceUrl code id root).toList = calls id code.toList := by
  intro hall
  have hsame := hall "" "a\nrequire('b').js" "" rfl (by decide +kernel)
  have hruns : calls "a\nrequire('b').js" (withSourceUrl "" "a\nrequire('b').js" "").toList =
      .ok [⟨"b", ⟨17, 24⟩, ⟨25, 28⟩⟩] := by
    rw [withSourceUrl_toList]
    rfl
  have hnone : calls "a\nrequire('b').js" "".toList = .ok [] := rfl
  rw [hruns, hnone] at hsame
  cases hsame

end ScriptVault.Script
